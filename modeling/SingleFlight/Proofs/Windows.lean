/-
SingleFlight.Proofs.Windows — the windows that policies accept.

A policy refuses a window that is zero or less. Of two doubles neither need be the
lesser: what is no number is not above zero, and it is not refused. It is the only
such window. An environment has it from the word `nan` alone, since the nearest
double of every other numeral is a number, however it is written and rounded.

* `Double.isNaN_pack`, `Double.isNaN_ofDecimal` — rounding and packing keep numbers
  numbers.
* `Double.not_le_zero_iff` — what is not refused is above zero, or no number.
* `Numeral.isNaN_toFloat` — which numerals are no numbers.
* `Policy.Usable` — a window above zero, and a name that is not blank.
* `Settings.usable_or_nan` — which policies settings and environments give.
* `Settings.unusable_accepted` — an environment that gives one that is not usable.
-/
import SingleFlight.Double
import SingleFlight.Proofs.Environments

namespace SingleFlight

/-! ## §1 Doubles that are no numbers -/

namespace Double

open Float.Model (Format UnpackedFloat)
open Float.Model.UnpackedFloat (Sign Accuracy pack unpack unpackExponent unpackMantissa
  unpackExponent_packComponents unpackMantissa_packComponents roundWithAccuracy)

/-- What is no number has an exponent of ones alone, and a mantissa. -/
theorem isNaN_unpack_iff {spec : Format} {b : BitVec spec.numBits} :
    (unpack spec b).isNaN = true ↔ unpackExponent b = -1#_ ∧ unpackMantissa b ≠ 0#_ := by
  unfold unpack
  dsimp only
  by_cases he : unpackExponent b = -1#_
  · by_cases hm : unpackMantissa b = 0#_
    · rw [if_pos he, if_pos hm]
      exact iff_of_false Bool.false_ne_true fun h => h.2 hm
    · rw [if_pos he, if_neg hm]
      exact iff_of_true rfl ⟨he, hm⟩
  · rw [if_neg he]
    refine iff_of_false (fun h => ?_) fun h => he h.1
    by_cases hz : unpackExponent b = 0#_
    · by_cases hm : unpackMantissa b = 0#_
      · rw [if_pos hz, dif_pos hm] at h
        cases h
      · rw [if_pos hz, dif_neg hm] at h
        cases h
    · rw [if_neg hz] at h
      cases h

/-- If the exponent of a packed number has ones alone, it is an infinity. -/
theorem mantissa_pack {spec : Format} {u : UnpackedFloat} (h : u.isNaN = false) :
    unpackExponent (pack spec u) = -1#_ → unpackMantissa (pack spec u) = 0#_ := by
  fun_cases pack spec u with
  | case1 => cases h
  | case2 s => exact fun _ => unpackMantissa_packComponents ..
  | case3 s => exact fun _ => unpackMantissa_packComponents ..
  | case4 s m e hm biased large => exact fun _ => unpackMantissa_packComponents ..
  | case5 s m e hm bits biased small hbits =>
    -- The exponent has been compared with the largest one before it was cut to its bits.
    intro he
    rw [unpackExponent_packComponents] at he
    have ones := congrArg BitVec.toNat he
    simp only [BitVec.toNat_ofNat, BitVec.neg_one_eq_allOnes, BitVec.toNat_allOnes] at ones
    rw [Nat.mod_eq_of_lt (by omega)] at ones
    omega
  | case6 s m e hm bits biased small hbits =>
    intro he
    rw [unpackExponent_packComponents] at he
    have ones := congrArg BitVec.toNat he
    simp only [BitVec.toNat_ofNat, Nat.zero_mod, BitVec.neg_one_eq_allOnes,
      BitVec.toNat_allOnes] at ones
    have wide := Nat.one_lt_two_pow (Nat.pos_iff_ne_zero.mp spec.he)
    omega

/-- A number is packed as a number. -/
theorem isNaN_pack {spec : Format} {u : UnpackedFloat} (h : u.isNaN = false) :
    (unpack spec (pack spec u)).isNaN = false := by
  refine Bool.eq_false_iff.mpr fun hn => ?_
  obtain ⟨he, hm⟩ := isNaN_unpack_iff.mp hn
  exact hm (mantissa_pack h he)

theorem isNaN_zero_or_finite (s : Sign) (m : Nat) (e : Int) :
    (if h : m = 0 then UnpackedFloat.zero s
      else .finite s m e (Nat.pos_of_ne_zero h)).isNaN = false := by
  by_cases h : m = 0
  · rw [dif_pos h]
    rfl
  · rw [dif_neg h]
    rfl

/-- Rounding ends in zero or in a finite number. -/
theorem isNaN_roundWithAccuracy (spec : Format) (s : Sign) (m : Nat) (e : Int) (a : Accuracy) :
    (roundWithAccuracy spec s m e a).isNaN = false :=
  isNaN_zero_or_finite ..

theorem isNaN_ofNat (spec : Format) (n : Nat) :
    (UnpackedFloat.ofNat spec n).isNaN = false := by
  unfold UnpackedFloat.ofNat UnpackedFloat.ofInt UnpackedFloat.normalize
  split
  · exact isNaN_roundWithAccuracy ..
  · rfl
  · exact isNaN_roundWithAccuracy ..

/-- A finite number other than zero. -/
def isProper : UnpackedFloat → Bool
  | .finite .. => true
  | _ => false

/-- Numbers can be multiplied by a finite number other than zero. -/
theorem isNaN_mul {spec : Format} {u v : UnpackedFloat} (hu : u.isNaN = false)
    (hv : isProper v = true) : (UnpackedFloat.mul spec u v).isNaN = false := by
  cases v with
  | finite s m e hm =>
    cases u with
    | notANumber => cases hu
    | infinity s' => rfl
    | zero s' => rfl
    | finite s' m' e' hm' => exact isNaN_roundWithAccuracy ..
  | _ => cases hv

/-- Numbers can be divided by a finite number other than zero. -/
theorem isNaN_div {spec : Format} {u v : UnpackedFloat} (hu : u.isNaN = false)
    (hv : isProper v = true) : (UnpackedFloat.div spec u v).isNaN = false := by
  cases v with
  | finite s m e hm =>
    cases u with
    | notANumber => cases hu
    | infinity s' => rfl
    | zero s' => rfl
    | finite s' m' e' hm' => exact isNaN_roundWithAccuracy ..
  | _ => cases hv

theorem isNaN_ofScientific (spec : Format) (m : Nat) (e : Int) :
    (UnpackedFloat.ofScientific spec m e).isNaN = false := by
  unfold UnpackedFloat.ofScientific
  by_cases hm : m = 0
  · rw [dif_pos hm]
    rfl
  by_cases huge : e > 2 ^ spec.exponentBits
  · rw [dif_neg hm, if_pos huge]
    rfl
  by_cases tiny : e < -((2 ^ spec.exponentBits : Int) + m.log2)
  · rw [dif_neg hm, if_neg huge, if_pos tiny]
    rfl
  by_cases whole : 0 ≤ e
  · rw [dif_neg hm, if_neg huge, if_neg tiny, if_pos whole]
    exact isNaN_mul rfl rfl
  · rw [dif_neg hm, if_neg huge, if_neg tiny, if_neg whole]
    exact isNaN_div rfl rfl

/-- The powers of ten that are doubles. -/
theorem isProper_powerOfTen {i : Nat} (h : i < Float.exactlyRepresentablePowersOfTen.size) :
    isProper (Float.exactlyRepresentablePowersOfTen[i].toModel.unpack) = true := by
  have all : ∀ i : Fin 23,
      isProper (Float.exactlyRepresentablePowersOfTen[i].toModel.unpack) = true := by decide
  exact all ⟨i, h⟩

/-- The double nearest to a decimal is a number. -/
theorem isNaN_ofDecimal (m : Nat) (s : Bool) (e : Nat) :
    (Float.ofScientific m s e).isNaN = false := by
  have whole : (Float.Model.ofNat m.toUInt64.toNat).unpack.isNaN = false :=
    isNaN_pack (isNaN_ofNat ..)
  unfold Float.ofScientific
  split
  · -- The whole number may be anything but no number, since a power of ten is never zero.
    rename_i h
    have power := isProper_powerOfTen (i := e) (Nat.lt_succ_of_le h.2)
    dsimp only
    split
    · exact isNaN_pack (isNaN_div whole power)
    · exact isNaN_pack (isNaN_mul whole power)
  · exact isNaN_pack (isNaN_ofScientific ..)

/-- What has another sign is a number as before. -/
theorem isNaN_neg (x : Float) : (-x).isNaN = x.isNaN := by
  change (unpack _ (pack _ x.toModel.unpack.neg)).isNaN = x.toModel.unpack.isNaN
  cases hx : x.toModel.unpack with
  | notANumber => rfl
  | infinity s => exact isNaN_pack rfl
  | zero s => exact isNaN_pack rfl
  | finite s m e hm => exact isNaN_pack rfl

/-! ### Comparing with zero -/

theorem unpack_zero : (0 : Float).toModel.unpack = .zero .positive := rfl

theorem le_iff {x y : Float} : x ≤ y ↔ x.toModel.unpack.le y.toModel.unpack = true :=
  decide_eq_true_iff (p := x.toModel ≤ y.toModel)

theorem lt_iff {x y : Float} : x < y ↔ x.toModel.unpack.lt y.toModel.unpack = true :=
  decide_eq_true_iff (p := x.toModel < y.toModel)

theorem isNaN_iff {x : Float} : x.isNaN = true ↔ x.toModel.unpack.isNaN = true :=
  .rfl

/-- What is not zero or less is above zero, or no number. -/
theorem not_le_zero_iff {x : Float} : ¬x ≤ 0 ↔ 0 < x ∨ x.isNaN = true := by
  rw [le_iff, lt_iff, isNaN_iff, unpack_zero]
  cases x.toModel.unpack with
  | notANumber => decide
  | infinity s => cases s <;> decide
  | zero s => cases s <;> decide
  | finite s m e hm =>
    cases s with
    | negative => exact iff_of_false (fun h => h rfl) (·.elim Bool.false_ne_true Bool.false_ne_true)
    | positive => exact iff_of_true Bool.false_ne_true (.inl rfl)

/-- What is no number is neither above nor below any double. -/
theorem not_lt_of_isNaN {x : Float} (h : x.isNaN = true) (y : Float) : ¬x < y ∧ ¬y < x := by
  rw [lt_iff, lt_iff]
  rw [isNaN_iff] at h
  cases hx : x.toModel.unpack with
  | notANumber =>
    cases y.toModel.unpack <;> exact ⟨Bool.false_ne_true, Bool.false_ne_true⟩
  | _ =>
    rw [hx] at h
    cases h

end Double

/-! ## §2 Windows -/

namespace Numeral

/-- The double nearest to a numeral is a number, unless the numeral is the word for none. -/
theorem isNaN_toFloat {n : Numeral} :
    n.toFloat.isNaN = true ↔ n.magnitude = .notANumber := by
  have nearest : (nearest n.magnitude).isNaN = true ↔ n.magnitude = .notANumber := by
    cases n.magnitude with
    | infinite => decide
    | notANumber => decide
    | decimal digits exponent =>
      simp only [Numeral.nearest, reduceCtorEq, iff_false, Bool.not_eq_true]
      split
      · decide
      · split
        · decide
        · exact Double.isNaN_ofDecimal ..
  unfold toFloat
  split
  · rw [Double.isNaN_neg, nearest]
  · exact nearest

end Numeral

open Text (allBlank)

/-- A window above zero, and a name that is not blank. -/
def Policy.Usable (p : Policy) : Prop :=
  0 < p.timeout ∧ allBlank p.uniqueName.toList = false

/-- A policy is accepted if it is usable, or its window is no number and its name is not blank. -/
theorem Policy.make_eq_ok_iff {timeout : Float} {uniqueName assetKind : String} {p : Policy} :
    Policy.make timeout uniqueName assetKind = .ok p ↔
      p = { timeout, uniqueName, assetKind } ∧ (0 < timeout ∨ timeout.isNaN = true) ∧
        allBlank uniqueName.toList = false := by
  rw [← Double.not_le_zero_iff]
  unfold make
  by_cases hw : timeout ≤ 0
  · simp [hw]
  · cases hb : allBlank uniqueName.toList with
    | true => simp [hw]
    | false => simp [hw, eq_comm]

namespace Settings

theorem readSeconds_eq_ok_iff {text : String} {t : Float} :
    readSeconds text = .ok t ↔ ∃ n, Numeral.read? text.toList = some n ∧ n.toFloat = t := by
  unfold readSeconds
  cases Numeral.read? text.toList with
  | none => simp
  | some n => simp

/-- The text that an environment gives for the window spells no number. -/
def SpellsNaN (env : Environment) : Prop :=
  ∃ n, Numeral.read? (valueOf env "CHUNKLOAD_TIMEOUT_S" "120.0").toList = some n ∧
    n.magnitude = .notANumber

/-- An environment's window is no number if its text says so, and else never. -/
theorem Spelled.isNaN_iff {env : Environment} {s : Settings} (h : Spelled env s) :
    s.timeout.isNaN = true ↔ SpellsNaN env := by
  obtain ⟨n, hn, ht⟩ := readSeconds_eq_ok_iff.mp h.timeout
  rw [← ht, Numeral.isNaN_toFloat]
  constructor
  · exact fun hm => ⟨n, hn, hm⟩
  · rintro ⟨n', hn', hm⟩
    cases hn.symm.trans hn'
    exact hm

/-- Settings give the policy that they describe, if that is usable or its window is no number. -/
theorem policy_eq_ok_iff {s : Settings} {p : Policy} :
    s.policy = .ok p ↔
      p = { timeout := s.timeout, uniqueName := s.uniqueName, assetKind := s.assetKind } ∧
        (p.Usable ∨ p.timeout.isNaN = true ∧ allBlank p.uniqueName.toList = false) := by
  rw [policy, Policy.make_eq_ok_iff, or_and_right]
  constructor
  · rintro ⟨rfl, h⟩
    exact ⟨rfl, h⟩
  · rintro ⟨rfl, h⟩
    exact ⟨rfl, h⟩

/--
Which policies are accepted. Settings give the policy that they describe, if it is usable or its
window is no number. An environment gives none but usable ones, unless its text for the window
spells no number; the window is neither above nor below zero then.
-/
theorem usable_or_nan (s : Settings) (env : Environment) (p : Policy) :
    (s.policy = .ok p ↔
      p = { timeout := s.timeout, uniqueName := s.uniqueName, assetKind := s.assetKind } ∧
        (p.Usable ∨ p.timeout.isNaN = true ∧ allBlank p.uniqueName.toList = false)) ∧
    ((fromEnvironment env).bind policy = .ok p →
      p.Usable ∧ ¬SpellsNaN env ∨
        SpellsNaN env ∧ ¬0 < p.timeout ∧ ¬p.timeout < 0 ∧
          allBlank p.uniqueName.toList = false) := by
  refine ⟨policy_eq_ok_iff, fun h => ?_⟩
  cases hs : fromEnvironment env with
  | error e =>
    rw [hs] at h
    cases h
  | ok s =>
    rw [hs] at h
    have spelled := fromEnvironment_eq_ok_iff.mp hs
    obtain ⟨rfl, usable | ⟨nan, named⟩⟩ := policy_eq_ok_iff.mp h
    · refine .inl ⟨usable, fun hn => ?_⟩
      exact (Double.not_lt_of_isNaN (spelled.isNaN_iff.mpr hn) 0).2 usable.1
    · obtain ⟨below, above⟩ := Double.not_lt_of_isNaN nan 0
      exact .inr ⟨spelled.isNaN_iff.mp nan, above, below, named⟩

/-- A window with a sign, a separator and an exponent, between white space. -/
theorem usable_of_spelled :
    ∃ p, (fromEnvironment [("CHUNKLOAD_TIMEOUT_S", " +1_0.5e-1\n")]).bind policy = .ok p ∧
      p.Usable := by
  have accepted : ((fromEnvironment [("CHUNKLOAD_TIMEOUT_S", " +1_0.5e-1\n")]).bind
      policy).toOption.isSome = true := by decide
  cases h : (fromEnvironment [("CHUNKLOAD_TIMEOUT_S", " +1_0.5e-1\n")]).bind policy with
  | error e =>
    rw [h] at accepted
    cases accepted
  | ok p =>
    refine ⟨p, rfl, ?_⟩
    rcases (usable_or_nan {} _ p).2 h with ⟨usable, -⟩ | ⟨⟨n, hn, nan⟩, -⟩
    · exact usable
    · have read : Numeral.read? (valueOf [("CHUNKLOAD_TIMEOUT_S", " +1_0.5e-1\n")]
          "CHUNKLOAD_TIMEOUT_S" "120.0").toList = some ⟨false, .decimal 105 (-2)⟩ := by decide
      cases hn.symm.trans read
      cases nan

/-- The word for no number is accepted as a window, which is neither above nor below zero. -/
theorem unusable_accepted :
    ∃ p, (fromEnvironment [("CHUNKLOAD_TIMEOUT_S", "nan")]).bind policy = .ok p ∧ ¬p.Usable ∧
      ¬0 < p.timeout ∧ ¬p.timeout < 0 := by
  have accepted : ((fromEnvironment [("CHUNKLOAD_TIMEOUT_S", "nan")]).bind policy).toOption.map
      (fun p => p.timeout.isNaN) = some true := by decide
  cases h : (fromEnvironment [("CHUNKLOAD_TIMEOUT_S", "nan")]).bind policy with
  | error e =>
    rw [h] at accepted
    cases accepted
  | ok p =>
    rw [h] at accepted
    have nan : p.timeout.isNaN = true := Option.some.inj accepted
    obtain ⟨below, above⟩ := Double.not_lt_of_isNaN nan 0
    exact ⟨p, rfl, fun usable => above usable.1, above, below⟩

end Settings

end SingleFlight
