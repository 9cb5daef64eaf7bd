/-
SingleFlight.Proofs.Agreement — the two counting sinks agree.

Declared counters and a tally key what they count differently: by a list of label
values below the label names that a name was declared with, and by a name with sorted
tags. On the same uses they agree all the same, if the tally is spared those that the
declared counters refuse: a use is refused for its label names exactly if they are not
those of the first use of its name, which changes nothing, and after every prefix the
samples are the counters.

* `Declared.Agreement` — what that means for a list of uses.
* `Declared.sinks_agree` — it holds with every lawful client, wherever names can stand
  side by side and doubles count exactly.
* `Declared.first_use_refused` — names none of which is another one with a suffix need
  not be able to stand side by side: a family loses one `_total` before suffixes are
  put to it.
-/
import SingleFlight.Proofs.Collectors

namespace SingleFlight.Metrics.Declared

open CounterClient (ownLabel)

variable {ρ : Type} {client : CounterClient ρ} {Accepts : CounterName → List String → Prop}
  {Keeps : ρ → Books → Prop} {space : String} {uses : List Use}

/-- What declared counters and a tally make of the same uses. -/
structure Agreement (client : CounterClient ρ) (space : String) (uses : List Use) : Prop where
  /--
  A use is refused for its label names exactly if they are not those of the first use of its name,
  and then nothing changes. Any other is counted, but for one with the label by whose name no sample
  can be chosen.
  -/
  refused : ∀ seen u rest first, uses = seen ++ u :: rest →
    uses.find? (·.name = u.name) = some first →
    let d := (fresh client space).recordAll client seen
    (¬first.SameLabels u →
      d.record client u = (d, some (.labelDrift u.name first.labels u.labels))) ∧
    (first.SameLabels u →
      (d.record client u).2 =
        if ownLabel ∈ u.tags.map (·.1) then some (.labelClash ownLabel) else none)
  /-- After every prefix the samples are the counters of a tally that was fed what was accepted. -/
  mirrored : ∀ seen, seen <+: uses →
    let d := (fresh client space).recordAll client seen
    let t := Tally.recordAll {} ((fresh client space).accepted client seen)
    t.counters.keys.Nodup ∧ ∃ samples, client.samples d.registry = .ok samples ∧
      samples.Perm
        (t.counters.map fun c => ((CounterName.sampleName ⟨space, c.1.1⟩, c.1.2), c.2))
  /-- The names of samples tell the names of counters apart. -/
  named : ∀ u ∈ uses, ∀ v ∈ uses,
    CounterName.sampleName ⟨space, u.name⟩ = CounterName.sampleName ⟨space, v.name⟩ →
      u.name = v.name
  /--
  Each counter is the sum of the accepted uses of its name under its tags, in any order of these,
  and a total is the sum over all tags.
  -/
  summed : ∀ seen, seen <+: uses → ∀ name tags,
    let taken := (fresh client space).accepted client seen
    let t := Tally.recordAll {} taken
    t.get name tags =
      ((taken.filter fun u => u.name = name ∧ u.tags.Perm tags).map (·.amount)).sum ∧
    t.total name = ((t.counters.filter (·.1.1 == name)).map (·.2)).sum ∧
    t.total name = ((taken.filter (·.name = name)).map (·.amount)).sum
  /--
  The order of the accepted uses is of no account to the tally. Neither is it to the samples: none
  of these uses is refused in any other order that doubles count exactly.
  -/
  reordered : ∀ us, us.Perm ((fresh client space).accepted client uses) →
    (Tally.recordAll {} us).counters.Perm
      (Tally.recordAll {} ((fresh client space).accepted client uses)).counters ∧
    (Exact us → (fresh client space).accepted client us = us ∧ ∃ samples samples',
      client.samples ((fresh client space).recordAll client uses).registry = .ok samples ∧
      client.samples ((fresh client space).recordAll client us).registry = .ok samples' ∧
      samples'.Perm samples)

/-- Uses that fit among others fit among themselves, in any order. -/
theorem fitting_of_perm {us : List Use} (h : us.Perm (fitting uses uses)) :
    fitting us us = us := by
  have fits : ∀ u ∈ us, Fits uses u := fun u hu => (mem_fitting.mp (h.mem_iff.mp hu)).2
  refine List.filter_eq_self.mpr fun u hu => decide_eq_true ⟨?_, (fits u hu).2⟩
  obtain ⟨v, hv⟩ : ∃ v, us.find? (·.name = u.name) = some v :=
    Option.isSome_iff_exists.mp (List.find?_isSome.mpr ⟨u, hu, by simp⟩)
  have hname : v.name = u.name := by simpa using List.find?_some hv
  rw [firstLabels?, hv, Option.map_some,
    (fits v (List.mem_of_find?_eq_some hv)).labels_eq (fits u hu) hname]

/--
The two sinks agree on uses whose names can stand side by side, as long as doubles count these
exactly. The client may be any that accepts the names, begins samples at zero, and adds up exactly
where sums are doubles.
-/
theorem sinks_agree (lawful : client.Lawful Accepts Keeps) (space : String) (uses : List Use)
    (permitted : Permitted Accepts space uses) (exact : Exact (fitting uses uses)) :
    Agreement client space uses where
  refused seen u rest first huses hfirst := by
    have hseen : seen ++ [u] <+: uses := ⟨rest, by simp [huses]⟩
    obtain ⟨holds, -⟩ :=
      holds_recordAll lawful permitted exact ((List.prefix_append _ _).trans hseen)
    obtain ⟨labels, hlabels⟩ := exists_firstLabels? seen u
    have same : labels = first.labels := by
      have whole := firstLabels?_mono hseen hlabels
      rw [firstLabels?, hfirst, Option.map_some] at whole
      exact (Option.some.inj whole).symm
    rw [same] at hlabels
    obtain ⟨-, drifts, fits⟩ :=
      holds.record lawful (permitted.mono fun v hv => hseen.subset hv) exact hseen hlabels
    simp only [← Use.labels_eq_iff, ← Use.mem_labels]
    exact ⟨drifts, fits⟩
  mirrored seen hseen := by
    obtain ⟨holds, accepted⟩ := holds_recordAll lawful permitted exact hseen
    simp only [accepted]
    exact ⟨Tally.nodup_recordAll _, holds.samples_perm lawful permitted hseen⟩
  named u hu v hv := permitted.sampleName_inj hu hv
  summed seen _ name tags :=
    ⟨Tally.get_recordAll _ name tags, Tally.total_eq_sum _ name, Tally.total_recordAll _ name⟩
  reordered us hperm := by
    obtain ⟨holds, accepted⟩ := holds_recordAll lawful permitted exact List.prefix_rfl
    rw [accepted] at hperm ⊢
    have counters := Tally.recordAll_perm hperm
    refine ⟨counters, fun hus => ?_⟩
    have fitting_eq := fitting_of_perm hperm
    have permitted' : Permitted Accepts space us :=
      permitted.mono fun u hu => (mem_fitting.mp (hperm.mem_iff.mp hu)).1
    have exact' : Exact (fitting us us) := fitting_eq.symm ▸ hus
    obtain ⟨holds', accepted'⟩ := holds_recordAll lawful permitted' exact' List.prefix_rfl
    obtain ⟨samples, hsamples, mirrors⟩ := holds.samples_perm lawful permitted List.prefix_rfl
    obtain ⟨samples', hsamples', mirrors'⟩ :=
      holds'.samples_perm lawful permitted' List.prefix_rfl
    rw [fitting_eq] at accepted' mirrors'
    exact ⟨accepted', samples, samples', hsamples, hsamples',
      mirrors'.trans ((counters.map _).trans mirrors.symm)⟩

/--
Five uses of three names: the tags of one come in two orders, one use has other label names than the
first of its name, one counts nothing, and one has the label by which no sample can be chosen.
-/
theorem sinks_agree_on_five :
    let uses : List Use :=
      [⟨"loads", 3, [("b", "2"), ("a", "1")], by decide⟩, ⟨"loads", 7, [("a", "1")], by decide⟩,
        ⟨"hits_total", 0, [], by decide⟩, ⟨"loads", 4, [("a", "1"), ("b", "2")], by decide⟩,
        ⟨"owned", 1, [("self", "x")], by decide⟩]
    Collector.client.Lawful Collector.Accepts Collector.Keeps ∧
      Permitted Collector.Accepts "chunkload" uses ∧ Exact (fitting uses uses) ∧
        Agreement Collector.client "chunkload" uses := by
  intro uses
  have names : ∀ u ∈ uses, u.name ≠ "" ∧ CounterName.family ⟨"chunkload", u.name⟩ ≠ "" := by
    decide +kernel
  have tags : ∀ u ∈ uses, ∀ label ∈ u.tags.map (·.1), Collector.isReserved label = false := by
    decide +kernel
  have permitted : Permitted Collector.Accepts "chunkload" uses :=
    { accepted := fun u hu => ⟨(names u hu).1, (names u hu).2, fun label hlabel =>
        tags u hu label (Use.mem_labels.mp hlabel)⟩
      apart := by decide +kernel }
  have exact : Exact (fitting uses uses) :=
    .of_sum_lt (by decide +kernel : (uses.map (·.amount)).sum < Double.twoTo 53)
      List.filter_sublist
  exact ⟨Collector.lawful, permitted, exact,
    sinks_agree Collector.lawful "chunkload" uses permitted exact⟩

/--
Here neither name is the other one with a suffix, and each use is taken where it is the only one.
Yet the first use of the second name is refused, since its family is that of the first name with a
suffix; and so is a use of that name with other labels, but not for its labels.
-/
theorem first_use_refused :
    let client := Collector.client
    let d := fresh client "chunkload"
    let total : Use := ⟨"hits_total", 1, [], by decide⟩
    let created : Use := ⟨"hits_created", 5, [("k", "v")], by decide⟩
    let drifted : Use := ⟨"hits_created", 2, [], by decide⟩
    let uses := [total, created, drifted]
    let taken : Option MetricsError := some (.taken ["chunkload_hits_created"])
    (∀ u ∈ uses, (d.record client u).2 = none) ∧
      (∀ u ∈ uses, ∀ v ∈ uses, u.name ≠ v.name ++ "_total" ∧ u.name ≠ v.name ++ "_created") ∧
      (uses.map (·.amount)).sum < Double.twoTo 53 ∧
      ((d.recordAll client [total]).record client created).2 = taken ∧
      ((d.recordAll client [total, created]).record client drifted).2 = taken ∧
      ¬Agreement client "chunkload" uses := by
  intro client d total created drifted uses taken
  have refused : ((d.recordAll client [total]).record client created).2 = taken := by
    decide +kernel
  refine ⟨by decide +kernel, by decide +kernel, by decide +kernel, refused, by decide +kernel, ?_⟩
  intro agree
  have counted := (agree.refused [total] created [drifted] created rfl rfl).2 fun _ => Iff.rfl
  have free : ownLabel ∉ created.tags.map (·.1) := by decide
  rw [refused, if_neg free] at counted
  exact Option.some_ne_none _ counted

end SingleFlight.Metrics.Declared
