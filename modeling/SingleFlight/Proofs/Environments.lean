/-
SingleFlight.Proofs.Environments — environments that are spelled differently.

Seven of the variables are trimmed, and count as unset if nothing is left. So
white space around their values is of no account, and neither is whether a blank
one is set at all: the settings are the same, or the same fault. The public path is
taken as it stands. A backend's name is trimmed and lower-cased once by the
settings and once more by whoever selects the backend, which comes to the same as
once.

* `Environment.respaced` — an environment with other white space.
* `Settings.fromEnvironment_congr` — what settings depend on.
* `Settings.Spelled`, `Settings.fromEnvironment_eq_ok_iff` — the settings that an
  environment gives.
* `Settings.spelling_irrelevant` — white space, the public path, and both ways to
  name a backend.
-/
import SingleFlight.Backend
import SingleFlight.Proofs.Spelling

namespace SingleFlight

open Text (allBlank isBlank trim lowercase)

/-! ## §1 Trimmed texts -/

theorem trimmed_pad {before after : String} (hb : allBlank before.toList = true)
    (ha : allBlank after.toList = true) (s : String) :
    trimmed (before ++ s ++ after) = trimmed s := by
  rw [trimmed, String.toList_append, String.toList_append, Text.trim_pad hb ha, trimmed]

theorem trimmed_eq_empty_iff {s : String} : trimmed s = "" ↔ allBlank s.toList = true := by
  rw [← Text.trim_eq_nil_iff, trimmed, String.ofList_eq_empty_iff]

/-- A name that was trimmed and lower-cased stays as it is when this is done again. -/
theorem lowered_trimmed_lowered_trimmed (s : String) :
    lowered (trimmed (lowered (trimmed s))) = lowered (trimmed s) := by
  simp only [lowered, trimmed, String.toList_ofList, Text.lowercase_trim_lowercase_trim]

/-! ## §2 White space in environments -/

namespace Settings

/-- The variables whose values are trimmed. -/
def trimmedNames : List String :=
  ["CHUNKLOAD_FILENAME_TEMPLATE", "CHUNKLOAD_UNIQUE_NAME", "CHUNKLOAD_ASSET_KIND",
    "CHUNKLOAD_TIMEOUT_S", "CHUNKLOAD_HANDLE_BACKEND", "CHUNKLOAD_HTTP_TIMEOUT_S",
    "CHUNKLOAD_METRICS_BACKEND"]

end Settings

open Settings (trimmedNames valueOf fromEnvironment)

namespace Environment

/-- A value with other white space around it, or no value, if it is blank and is to be unset. -/
def respacedValue (before after : String → String) (unset : String → Bool) (name value : String) :
    Option String :=
  if trimmedNames.contains name then
    if unset name && allBlank value.toList then none
    else some (before name ++ value ++ after name)
  else some value

/--
The environment with `before` and `after` around the values that are trimmed, and without the
blank ones among those that are to be unset.
-/
def respaced (before after : String → String) (unset : String → Bool) (env : Environment) :
    Environment :=
  env.filterMap fun (name, value) => (respacedValue before after unset name value).map (name, ·)

variable {env : Environment} {before after : String → String} {unset : String → Bool}
  {name value : String}

/-- Each variable is respaced by itself. -/
theorem lookup_respaced (hn : (env.map Prod.fst).Nodup) (name : String) :
    (respaced before after unset env).lookup name =
      (env.lookup name).bind (respacedValue before after unset name) := by
  induction env with
  | nil => rfl
  | cons entry env ih =>
    obtain ⟨name', value⟩ := entry
    obtain ⟨hnew, hn⟩ := List.nodup_cons.mp hn
    have rest := ih hn
    unfold respaced at rest ⊢
    by_cases h : name = name'
    · subst h
      have absent : env.lookup name = none := by
        rw [List.lookup_eq_none_iff]
        intro entry hm
        simp only [bne_iff_ne, ne_eq]
        rintro rfl
        exact hnew (List.mem_map.mpr ⟨entry, hm, rfl⟩)
      rw [absent, Option.bind_none] at rest
      rw [List.lookup_cons_self, Option.bind_some, List.filterMap_cons]
      cases hv : respacedValue before after unset name value with
      | none => simpa [hv] using rest
      | some w => simp [hv]
    · have skip : (name == name') = false := beq_false_of_ne h
      rw [List.lookup_cons, skip, List.filterMap_cons]
      cases hv : respacedValue before after unset name' value with
      | none => simpa [hv] using rest
      | some w => simpa [hv, List.lookup_cons, skip] using rest

theorem valueOf_respaced (hn : (env.map Prod.fst).Nodup)
    (hb : ∀ name, allBlank (before name).toList = true)
    (ha : ∀ name, allBlank (after name).toList = true) (h : name ∈ trimmedNames)
    (default : String) :
    valueOf (respaced before after unset env) name default = valueOf env name default := by
  have same : trimmed (((respaced before after unset env).lookup name).getD "") =
      trimmed ((env.lookup name).getD "") := by
    rw [lookup_respaced hn]
    cases env.lookup name with
    | none => rfl
    | some value =>
      rw [Option.bind_some, respacedValue, if_pos (List.contains_iff_mem.mpr h), Option.getD_some]
      split
      · rename_i hblank
        rw [trimmed_eq_empty_iff.mpr (Bool.and_eq_true_iff.mp hblank).2]
        decide
      · exact trimmed_pad (hb name) (ha name) value
  rw [valueOf, valueOf, same]

end Environment

/-! ## §3 Settings -/

namespace Settings

variable {env env' : Environment} {v : String}

/-- Settings depend on nothing but the path and the trimmed values. -/
theorem fromEnvironment_congr
    (hpath : env.lookup "CHUNKLOAD_PUBLIC_PATH" = env'.lookup "CHUNKLOAD_PUBLIC_PATH")
    (hvalue : ∀ name ∈ trimmedNames, ∀ default,
      valueOf env name default = valueOf env' name default) :
    fromEnvironment env = fromEnvironment env' := by
  unfold fromEnvironment
  simp only [trimmedNames, List.forall_mem_cons] at hvalue
  simp only [hpath, hvalue]

/-- The settings are those that the environment spells, field by field. -/
structure Spelled (env : Environment) (s : Settings) : Prop where
  publicPath : s.publicPath = (env.lookup "CHUNKLOAD_PUBLIC_PATH").getD ""
  filename : s.filename = valueOf env "CHUNKLOAD_FILENAME_TEMPLATE" "\x7bid\x7d.css"
  uniqueName : s.uniqueName = valueOf env "CHUNKLOAD_UNIQUE_NAME" "webpack"
  assetKind : s.assetKind = valueOf env "CHUNKLOAD_ASSET_KIND" "css"
  timeout : readSeconds (valueOf env "CHUNKLOAD_TIMEOUT_S" "120.0") = .ok s.timeout
  handleBackend : s.handleBackend = lowered (valueOf env "CHUNKLOAD_HANDLE_BACKEND" "inmemory")
  httpTimeout : readLimit (valueOf env "CHUNKLOAD_HTTP_TIMEOUT_S" "30") = .ok s.httpTimeout
  metricsBackend : s.metricsBackend = lowered (valueOf env "CHUNKLOAD_METRICS_BACKEND" "none")

theorem fromEnvironment_eq_ok_iff {s : Settings} :
    fromEnvironment env = .ok s ↔ Spelled env s := by
  unfold fromEnvironment
  constructor
  · intro h
    cases ht : readSeconds (valueOf env "CHUNKLOAD_TIMEOUT_S" "120.0") with
    | error e =>
      rw [ht] at h
      cases h
    | ok timeout =>
      cases hl : readLimit (valueOf env "CHUNKLOAD_HTTP_TIMEOUT_S" "30") with
      | error e =>
        rw [ht, hl] at h
        cases h
      | ok limit =>
        rw [ht, hl] at h
        cases h
        refine ⟨?_, ?_, ?_, ?_, ht, ?_, hl, ?_⟩
        all_goals dsimp only
  · intro h
    obtain ⟨publicPath, filename, uniqueName, assetKind, timeout, handleBackend, httpTimeout,
      metricsBackend⟩ := s
    obtain ⟨rfl, rfl, rfl, rfl, ht, rfl, hl, rfl⟩ := h
    rw [ht, hl]
    rfl

theorem valueOf_of_unset {name : String} (h : env.lookup name = none) (default : String) :
    valueOf env name default = default := by
  rw [valueOf, h]
  exact if_pos (by decide)

/-- A text that spells a numeral is read as seconds, and as a limit. -/
theorem exists_seconds {text : String} (h : (Numeral.read? text.toList).isSome = true) :
    (∃ t, readSeconds text = .ok t) ∧ ∃ limit, readLimit text = .ok limit := by
  obtain ⟨n, hn⟩ := Option.isSome_iff_exists.mp h
  have read : readSeconds text = .ok n.toFloat := by rw [readSeconds, hn]
  refine ⟨⟨_, read⟩, ?_⟩
  unfold readLimit
  split
  · exact ⟨none, rfl⟩
  · exact ⟨some n.toFloat, by rw [read]; rfl⟩

/-- An environment that sets neither window gives settings. -/
theorem exists_settings_of_windowless
    (ht : env.lookup "CHUNKLOAD_TIMEOUT_S" = none)
    (hh : env.lookup "CHUNKLOAD_HTTP_TIMEOUT_S" = none) : ∃ s, fromEnvironment env = .ok s := by
  have spelt : (Numeral.read? "120.0".toList).isSome = true := by decide
  have spelt' : (Numeral.read? "30".toList).isSome = true := by decide
  obtain ⟨timeout, htimeout⟩ := (exists_seconds spelt).1
  obtain ⟨limit, hlimit⟩ := (exists_seconds spelt').2
  unfold fromEnvironment
  rw [valueOf_of_unset ht, valueOf_of_unset hh, htimeout, hlimit]
  exact ⟨_, rfl⟩

end Settings

/-! ## §4 Backends -/

variable {a b : String}

namespace RegistryBackend

theorem toOption_ofName_congr (h : lowered (trimmed a) = lowered (trimmed b)) :
    (ofName a).toOption = (ofName b).toOption := by
  unfold ofName
  dsimp only
  rw [h]
  split
  · rfl
  · split <;> rfl

end RegistryBackend

namespace SinkBackend

theorem toOption_ofName_congr (h : lowered (trimmed a) = lowered (trimmed b)) :
    (ofName a).toOption = (ofName b).toOption := by
  unfold ofName
  dsimp only
  rw [h]
  split
  · rfl
  · split
    · rfl
    · split <;> rfl

end SinkBackend

namespace Settings

variable {name v : String}

/-- The value of the only variable, if it is not blank. -/
theorem valueOf_only (h : allBlank v.toList = false) (default : String) :
    valueOf [(name, v)] name default = trimmed v := by
  have left : trimmed v ≠ "" := by
    rw [ne_eq, trimmed_eq_empty_iff, h]
    exact Bool.false_ne_true
  rw [valueOf, List.lookup_cons_self, Option.getD_some, if_neg left]

/-- A variable that stands alone in an environment, and is no window, gives settings. -/
theorem exists_spelled_only (name : String) (ht : name ≠ "CHUNKLOAD_TIMEOUT_S")
    (hh : name ≠ "CHUNKLOAD_HTTP_TIMEOUT_S") (v : String) :
    ∃ s, fromEnvironment [(name, v)] = .ok s ∧ Spelled [(name, v)] s := by
  have absent : ∀ {other : String}, name ≠ other → [(name, v)].lookup other = none := by
    intro other hne
    rw [List.lookup_cons, beq_false_of_ne hne.symm]
    rfl
  obtain ⟨s, hs⟩ := exists_settings_of_windowless (absent ht) (absent hh)
  exact ⟨s, hs, fromEnvironment_eq_ok_iff.mp hs⟩

/--
White space around the values that are trimmed is of no account, and neither is whether a blank one
is set. The public path is passed on as it is. A backend that an environment names is the one that
the name selects as it stands there, and none if it selects none.
-/
theorem spelling_irrelevant :
    (∀ (env : Environment) (before after : String → String) (unset : String → Bool),
      (env.map Prod.fst).Nodup → (∀ name, allBlank (before name).toList = true) →
      (∀ name, allBlank (after name).toList = true) →
        fromEnvironment (Environment.respaced before after unset env) = fromEnvironment env) ∧
    (∀ env s, fromEnvironment env = .ok s →
      s.publicPath = (env.lookup "CHUNKLOAD_PUBLIC_PATH").getD "") ∧
    ∀ v : String, allBlank v.toList = false →
      ((fromEnvironment [("CHUNKLOAD_HANDLE_BACKEND", v)]).bind fun s =>
          RegistryBackend.ofName s.handleBackend).toOption = (RegistryBackend.ofName v).toOption ∧
      ((fromEnvironment [("CHUNKLOAD_METRICS_BACKEND", v)]).bind fun s =>
          SinkBackend.ofName s.metricsBackend).toOption = (SinkBackend.ofName v).toOption := by
  refine ⟨fun env before after unset hn hb ha => ?_, fun env s h => ?_, fun v hv => ⟨?_, ?_⟩⟩
  · refine fromEnvironment_congr ?_ fun name hm default =>
      Environment.valueOf_respaced hn hb ha hm default
    rw [Environment.lookup_respaced hn]
    cases env.lookup "CHUNKLOAD_PUBLIC_PATH" with
    | none => rfl
    | some path => rfl
  · exact (fromEnvironment_eq_ok_iff.mp h).publicPath
  · obtain ⟨s, h, spelled⟩ :=
      exists_spelled_only "CHUNKLOAD_HANDLE_BACKEND" (by decide) (by decide) v
    rw [h, Except.bind, spelled.handleBackend, valueOf_only hv]
    exact RegistryBackend.toOption_ofName_congr (lowered_trimmed_lowered_trimmed v)
  · obtain ⟨s, h, spelled⟩ :=
      exists_spelled_only "CHUNKLOAD_METRICS_BACKEND" (by decide) (by decide) v
    rw [h, Except.bind, spelled.metricsBackend, valueOf_only hv]
    exact SinkBackend.toOption_ofName_congr (lowered_trimmed_lowered_trimmed v)

/-- A window between white space, a blank name that is unset, and backends in capitals. -/
theorem spelling_irrelevant_of_four :
    fromEnvironment [("CHUNKLOAD_TIMEOUT_S", "\t1e1\n"), ("CHUNKLOAD_PUBLIC_PATH", " /a ")] =
        fromEnvironment [("CHUNKLOAD_TIMEOUT_S", "1e1"), ("CHUNKLOAD_UNIQUE_NAME", " \n"),
          ("CHUNKLOAD_PUBLIC_PATH", " /a ")] ∧
      ((fromEnvironment [("CHUNKLOAD_HANDLE_BACKEND", " HTTPX\n")]).bind fun s =>
        RegistryBackend.ofName s.handleBackend).toOption = some .keyed ∧
      ((fromEnvironment [("CHUNKLOAD_METRICS_BACKEND", "\tPrometheus")]).bind fun s =>
        SinkBackend.ofName s.metricsBackend).toOption = some .declared := by
  obtain ⟨respaced, -, backends⟩ := spelling_irrelevant
  refine ⟨?_, ?_, ?_⟩
  · exact respaced
      [("CHUNKLOAD_TIMEOUT_S", "1e1"), ("CHUNKLOAD_UNIQUE_NAME", " \n"),
        ("CHUNKLOAD_PUBLIC_PATH", " /a ")]
      (fun _ => "\t") (fun _ => "\n") (fun _ => true) (by decide) (fun _ => by decide)
      fun _ => by decide
  · rw [(backends " HTTPX\n" (by decide)).1]
    decide
  · rw [(backends "\tPrometheus" (by decide)).2]
    decide

end Settings

end SingleFlight
