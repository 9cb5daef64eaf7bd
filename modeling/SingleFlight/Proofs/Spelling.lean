/-
SingleFlight.Proofs.Spelling — trimming and lower-casing together.

Trimming and lower-casing may follow each other in any order and any number of
times. Trimming looks at the ends of a text; lower-casing turns no other character
into white space, so the ends of a trimmed text stay ends. And lower-casing leads
to characters that it leaves alone: no run of the simple mapping leads into
another, and neither into a capital sigma nor to U+0130, whose forms depend on
more than the character.

* `trim_pad` — white space around a text is of no account.
* `CaseRun.settles_of_mem` — where the runs lead, checked over the whole table.
* `settled_of_mem_lowercase` — the characters of a text in lower case.
* `lowercase_trim_lowercase_trim` — twice is the same as once.
-/
import SingleFlight.Text.Blank
import SingleFlight.Text.Lowercase

namespace SingleFlight.Text

/-! ## §1 White space -/

variable {cs before after : List Char} {c : Char}

theorem allBlank_iff : allBlank cs = true ↔ ∀ c ∈ cs, isBlank c = true := by
  simp [allBlank]

theorem trimLeft_append (h : allBlank before = true) (cs : List Char) :
    trimLeft (before ++ cs) = trimLeft cs :=
  List.dropWhile_append_of_pos (allBlank_iff.mp h)

theorem trimRight_append (h : allBlank after = true) (cs : List Char) :
    trimRight (cs ++ after) = trimRight cs := by
  have back : allBlank after.reverse = true := by simpa [allBlank] using h
  rw [trimRight, List.reverse_append, trimLeft_append back, trimRight]

/-- White space behind a text stays there until the end is trimmed, unless nothing is before it. -/
theorem trimRight_trimLeft_append (h : allBlank after = true) (cs : List Char) :
    trimRight (trimLeft (cs ++ after)) = trimRight (trimLeft cs) := by
  cases hb : allBlank cs with
  | true =>
    rw [trimLeft_append hb, trimLeft_eq_nil_iff.mpr h, trimLeft_eq_nil_iff.mpr hb]
  | false =>
    have rest : trimLeft (cs ++ after) = trimLeft cs ++ after := by
      have left := mt trimLeft_eq_nil_iff.mp (by rw [hb]; exact Bool.false_ne_true)
      simp only [trimLeft, List.dropWhile_append] at left ⊢
      rw [if_neg (by simpa using left)]
    rw [rest, trimRight_append h]

/-- White space around a text is of no account. -/
theorem trim_pad (hb : allBlank before = true) (ha : allBlank after = true) (cs : List Char) :
    trim (before ++ cs ++ after) = trim cs := by
  rw [trim, List.append_assoc, trimLeft_append hb, trimRight_trimLeft_append ha, trim]

/-- A trimmed text does not begin with white space. -/
theorem isBlank_head_trim (h : c ∈ (trim cs).head?) : isBlank c = false := by
  obtain ⟨rest, hrest⟩ := List.head?_eq_some_iff.mp h
  obtain ⟨dropped, hd⟩ : trim cs <+: trimLeft cs := by
    rw [trim, trimRight, trimLeft, ← List.reverse_suffix, List.reverse_reverse]
    exact List.dropWhile_suffix _
  rw [hrest] at hd
  exact isBlank_of_trimLeft_eq_cons hd.symm

/-- A trimmed text does not end with white space. -/
theorem isBlank_getLast_trim (h : c ∈ (trim cs).getLast?) : isBlank c = false := by
  rw [trim, trimRight, List.getLast?_reverse] at h
  obtain ⟨rest, hrest⟩ := List.head?_eq_some_iff.mp h
  exact isBlank_of_trimLeft_eq_cons hrest

theorem trimLeft_eq_self (h : ∀ c ∈ cs.head?, isBlank c = false) : trimLeft cs = cs := by
  cases cs with
  | nil => rfl
  | cons c r => exact List.dropWhile_cons_of_neg (by simp [h c rfl])

/-- A text without white space at its ends is trimmed. -/
theorem trim_eq_self (hh : ∀ c ∈ cs.head?, isBlank c = false)
    (hl : ∀ c ∈ cs.getLast?, isBlank c = false) : trim cs = cs := by
  rw [trim, trimLeft_eq_self hh, trimRight, trimLeft_eq_self, List.reverse_reverse]
  rwa [List.head?_reverse]

/-! ## §2 Where the runs lead -/

namespace CaseRun

/-- The characters of a run after they have moved. -/
def image (r : CaseRun) : CaseRun where
  first := (r.first + r.shift).toNat
  last := (r.last + r.shift).toNat
  stride := r.stride
  shift := 0

/-- Whether the run has characters of one parity alone. -/
def sparse (r : CaseRun) : Bool :=
  r.stride == 2 || r.first == r.last

/-- Runs that are seen to have no character in common, by their ends or by parity. -/
def apart (r q : CaseRun) : Bool :=
  Nat.blt r.last q.first || Nat.blt q.last r.first ||
    (r.sparse && q.sparse && r.first % 2 != q.first % 2)

theorem holds_iff {r : CaseRun} {c : Nat} :
    r.holds c = true ↔ (r.first ≤ c ∧ c ≤ r.last) ∧ (c - r.first) % r.stride = 0 := by
  simp [holds]

theorem not_holds_of_apart {r q : CaseRun} (h : r.apart q = true) {c : Nat}
    (hc : r.holds c = true) : q.holds c = false := by
  rw [holds_iff] at hc
  refine Bool.eq_false_iff.mpr fun hq => ?_
  rw [holds_iff] at hq
  have parity : ∀ {r : CaseRun}, r.sparse = true →
      (r.first ≤ c ∧ c ≤ r.last) ∧ (c - r.first) % r.stride = 0 → c % 2 = r.first % 2 := by
    intro r hs hr
    simp only [sparse, Bool.or_eq_true, beq_iff_eq] at hs
    rcases hs with hs | hs
    · rw [hs] at hr
      omega
    · omega
  simp only [apart, Bool.or_eq_true, Bool.and_eq_true, Nat.blt_eq, bne_iff_ne] at h
  rcases h with (h | h) | ⟨⟨hr, hqs⟩, hne⟩
  · omega
  · omega
  · exact hne ((parity hr hc).symm.trans (parity hqs hq))

/-- The characters that the simple mapping changes, or that have other laws. -/
def unsettled : List CaseRun :=
  lowerRuns ++ blankRanges.map (fun (first, last) => ⟨first, last, 1, 0⟩) ++ [⟨304, 304, 1, 0⟩]

/-- The run leads to characters, and to none that is mapped again. -/
def settles (r : CaseRun) : Bool :=
  0 ≤ r.first + r.shift &&
    (r.image.last < 0xd800 || (0xdfff < r.image.first && r.image.last < 0x110000)) &&
      unsettled.all r.image.apart

/-- The characters of a run move into its image. -/
theorem holds_image {r : CaseRun} (h : 0 ≤ r.first + r.shift) {c : Nat} (hc : r.holds c = true) :
    r.image.holds (c + r.shift).toNat = true := by
  obtain ⟨⟨hfirst, hlast⟩, hstride⟩ := holds_iff.mp hc
  have steps : (c + r.shift).toNat - (r.first + r.shift).toNat = c - r.first := by omega
  refine holds_iff.mpr ⟨⟨?_, ?_⟩, ?_⟩
  · change (r.first + r.shift).toNat ≤ _
    omega
  · change _ ≤ (r.last + r.shift).toNat
    omega
  · change (_ - (r.first + r.shift).toNat) % r.stride = 0
    rw [steps, hstride]

theorem settles_of_mem : ∀ r ∈ lowerRuns, r.settles = true := by
  decide +kernel

end CaseRun

/-! ## §3 Lower case -/

/-- Lower-casing leaves the character alone, whatever stands around it. -/
def Settled (c : Char) : Prop :=
  lowerChar c = c ∧ c ≠ 'Σ' ∧ c ≠ 'İ'

/-- A character that moves becomes one that no run holds, and that is not white space. -/
theorem lowerChar_cases (c : Char) :
    lowerChar c = c ∨ ∀ q ∈ CaseRun.unsettled, q.holds (lowerChar c).toNat = false := by
  cases hr : lowerRuns.find? (fun r => r.holds c.toNat) with
  | none => exact .inl (by rw [lowerChar, hr])
  | some r =>
    have held : r.holds c.toNat = true :=
      List.find?_some (p := fun r : CaseRun => r.holds c.toNat) hr
    have settles := CaseRun.settles_of_mem r (List.mem_of_find?_eq_some hr)
    simp only [CaseRun.settles, Bool.and_eq_true, Bool.or_eq_true, decide_eq_true_eq] at settles
    obtain ⟨⟨hfirst, hvalid⟩, hapart⟩ := settles
    have moved := CaseRun.holds_image hfirst held
    have code : (lowerChar c).toNat = (c.toNat + r.shift).toNat := by
      have bounds := (CaseRun.holds_iff.mp moved).1
      have valid : (c.toNat + r.shift).toNat.isValidChar := by
        unfold Nat.isValidChar
        omega
      have made : Char.ofNat (c.toNat + r.shift).toNat = Char.ofNatAux _ valid := dif_pos valid
      rw [lowerChar, hr]
      exact congrArg Char.toNat made
    refine .inr fun q hq => ?_
    rw [code]
    exact CaseRun.not_holds_of_apart (List.all_eq_true.mp hapart q hq) moved

theorem lowerChar_eq_self (h : ∀ r ∈ lowerRuns, r.holds c.toNat = false) : lowerChar c = c := by
  have none : lowerRuns.find? (fun r => r.holds c.toNat) = none :=
    List.find?_eq_none.mpr fun r hr => by simp [h r hr]
  rw [lowerChar, none]

/-- The simple mapping leads to characters that lower-casing leaves alone. -/
theorem settled_lowerChar (hsigma : c ≠ 'Σ') (hdot : c ≠ 'İ') : Settled (lowerChar c) := by
  rcases lowerChar_cases c with h | h
  · exact ⟨by rw [h, h], by rwa [h], by rwa [h]⟩
  · have runs : ∀ r ∈ lowerRuns, r.holds (lowerChar c).toNat = false := fun r hr =>
      h r (List.mem_append_left _ (List.mem_append_left _ hr))
    refine ⟨lowerChar_eq_self runs, fun heq => ?_, fun heq => ?_⟩
    · have held : ∃ r ∈ lowerRuns, r.holds 'Σ'.toNat = true := List.any_eq_true.mp (by decide)
      obtain ⟨r, hr, hc⟩ := held
      rw [← heq, runs r hr] at hc
      exact Bool.false_ne_true hc
    · have hc := h ⟨304, 304, 1, 0⟩ (List.mem_append_right _ (List.mem_singleton_self _))
      rw [heq] at hc
      exact absurd hc (by decide)

/-- The simple mapping makes no white space. -/
theorem isBlank_lowerChar (hc : isBlank c = false) : isBlank (lowerChar c) = false := by
  rcases lowerChar_cases c with h | h
  · rw [h, hc]
  · refine Bool.eq_false_iff.mpr fun hb => ?_
    obtain ⟨range, hr, hfirst, hlast⟩ := CodeRanges.contains_iff.mp hb
    have mem : ⟨range.1, range.2, 1, 0⟩ ∈ CaseRun.unsettled :=
      List.mem_append_left _ (List.mem_append_right _ (List.mem_map_of_mem hr))
    have held := CaseRun.holds_iff (r := ⟨range.1, range.2, 1, 0⟩).mpr
      ⟨⟨hfirst, hlast⟩, Nat.mod_one _⟩
    rw [h _ mem] at held
    exact Bool.false_ne_true held

variable {d : Char}

theorem settled_of_mem_lowerIn (h : d ∈ lowerIn before c after) : Settled d := by
  unfold lowerIn at h
  split at h
  · cases List.mem_singleton.mp h
    unfold Settled
    split
    · decide
    · decide
  · split at h
    · simp only [List.mem_cons, List.not_mem_nil, or_false] at h
      rcases h with rfl | rfl
      · unfold Settled
        decide
      · unfold Settled
        decide
    · cases List.mem_singleton.mp h
      exact settled_lowerChar ‹_› ‹_›

theorem isBlank_of_mem_lowerIn (hc : isBlank c = false) (h : d ∈ lowerIn before c after) :
    isBlank d = false := by
  unfold lowerIn at h
  split at h
  · cases List.mem_singleton.mp h
    split
    · decide
    · decide
  · split at h
    · simp only [List.mem_cons, List.not_mem_nil, or_false] at h
      rcases h with rfl | rfl
      · decide
      · decide
    · cases List.mem_singleton.mp h
      exact isBlank_lowerChar hc

theorem lowerIn_ne_nil : lowerIn before c after ≠ [] := by
  unfold lowerIn
  split
  · simp
  · split <;> simp

theorem Settled.lowerIn_eq (h : Settled c) (before after : List Char) :
    lowerIn before c after = [c] := by
  rw [lowerIn, if_neg h.2.1, if_neg h.2.2, h.1]

/-- A text in lower case has none but characters that lower-casing leaves alone. -/
theorem settled_of_mem_lowercase (h : d ∈ lowercase cs) : Settled d := by
  have all : ∀ cs before, d ∈ lowerFrom before cs → Settled d := by
    intro cs
    induction cs with
    | nil => exact fun _ h => nomatch h
    | cons c r ih =>
      intro before h
      rcases List.mem_append.mp h with h | h
      · exact settled_of_mem_lowerIn h
      · exact ih (c :: before) h
  exact all cs [] h

theorem lowercase_eq_self (h : ∀ c ∈ cs, Settled c) : lowercase cs = cs := by
  have all : ∀ cs before, (∀ c ∈ cs, Settled c) → lowerFrom before cs = cs := by
    intro cs
    induction cs with
    | nil => exact fun _ _ => rfl
    | cons c r ih =>
      intro before h
      rw [lowerFrom, (h c List.mem_cons_self).lowerIn_eq,
        ih (c :: before) fun d hd => h d (List.mem_cons_of_mem _ hd), List.singleton_append]
  exact all cs [] h

/-- Lower-casing a second time changes nothing. -/
theorem lowercase_lowercase (cs : List Char) : lowercase (lowercase cs) = lowercase cs :=
  lowercase_eq_self fun _ => settled_of_mem_lowercase

/-! ### The ends of a text -/

theorem isBlank_head_lowercase (h : ∀ c ∈ cs.head?, isBlank c = false)
    (hd : d ∈ (lowercase cs).head?) : isBlank d = false := by
  cases cs with
  | nil => cases hd
  | cons c r =>
    rw [lowercase, lowerFrom, List.head?_append, List.head?_eq_some_head lowerIn_ne_nil,
      Option.some_or] at hd
    cases hd
    exact isBlank_of_mem_lowerIn (h c rfl) (List.head_mem _)

/-- The last character is lower-cased after all others. -/
theorem lowerFrom_concat (before cs : List Char) (c : Char) :
    ∃ front, lowerFrom before (cs ++ [c]) = front ++ lowerIn (cs.reverse ++ before) c [] := by
  induction cs generalizing before with
  | nil => exact ⟨[], by simp [lowerFrom]⟩
  | cons e r ih =>
    obtain ⟨front, h⟩ := ih (e :: before)
    refine ⟨lowerIn before e (r ++ [c]) ++ front, ?_⟩
    rw [List.cons_append, lowerFrom, h]
    simp

theorem isBlank_getLast_lowercase (h : ∀ c ∈ cs.getLast?, isBlank c = false)
    (hd : d ∈ (lowercase cs).getLast?) : isBlank d = false := by
  rcases List.eq_nil_or_concat cs with rfl | ⟨r, c, rfl⟩
  · cases hd
  · obtain ⟨front, hf⟩ := lowerFrom_concat [] r c
    rw [lowercase, List.concat_eq_append, hf, List.getLast?_append,
      List.getLast?_eq_some_getLast lowerIn_ne_nil, Option.some_or] at hd
    cases hd
    exact isBlank_of_mem_lowerIn (h c (by simp)) (List.getLast_mem _)

/-- Lower-casing a trimmed text leaves it trimmed. -/
theorem trim_lowercase_trim (cs : List Char) :
    trim (lowercase (trim cs)) = lowercase (trim cs) :=
  trim_eq_self (fun _ => isBlank_head_lowercase fun _ => isBlank_head_trim)
    fun _ => isBlank_getLast_lowercase fun _ => isBlank_getLast_trim

/-- Trimming and lower-casing twice is the same as once. -/
theorem lowercase_trim_lowercase_trim (cs : List Char) :
    lowercase (trim (lowercase (trim cs))) = lowercase (trim cs) := by
  rw [trim_lowercase_trim, lowercase_lowercase]

end SingleFlight.Text
