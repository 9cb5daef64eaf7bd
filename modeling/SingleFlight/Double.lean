/-
SingleFlight.Double — doubles as whole numbers.

Every finite double is a whole number of the least positive one, 2^-1074, which
is the unit here; so sums and roundings of doubles are exact arithmetic on
natural numbers. The same rounding serves whole numbers that are to become
doubles, since a double of 1 or more is a number of at most 53 binary digits
times a power of two, whichever unit it is counted in.

* `Double.divRound`, `Double.round` — the nearest quotient, and the nearest
  number of at most 53 binary digits; of two equally near, the even one.
* `Double.round_of_lt` — numbers of at most 53 binary digits are left alone.
* `Double.round_mul_twoTo` — rounding is the same in every unit.
* `Double.add` — the sum of two doubles that are not negative.
-/
namespace SingleFlight.Double

/-- A power of two. -/
def twoTo (k : Nat) : Nat :=
  Nat.pow 2 k

theorem twoTo_pos (k : Nat) : 0 < twoTo k :=
  Nat.two_pow_pos k

theorem twoTo_add (j k : Nat) : twoTo (j + k) = twoTo j * twoTo k :=
  Nat.pow_add 2 j k

theorem log2_lt {n k : Nat} (hn : n ≠ 0) : n.log2 < k ↔ n < twoTo k :=
  Nat.log2_lt hn

/-- A number's digits move up as it is multiplied by a power of two. -/
theorem log2_mul_twoTo {n : Nat} (hn : n ≠ 0) (k : Nat) : (n * twoTo k).log2 = n.log2 + k := by
  have hlo : twoTo n.log2 ≤ n := Nat.log2_self_le hn
  have hhi : n < twoTo (n.log2 + 1) := (log2_lt hn).mp (Nat.lt_succ_self _)
  refine (Nat.log2_eq_iff (Nat.mul_ne_zero hn (Nat.ne_of_gt (twoTo_pos k)))).mpr ⟨?_, ?_⟩
  · show twoTo (n.log2 + k) ≤ n * twoTo k
    rw [twoTo_add]
    exact Nat.mul_le_mul_right _ hlo
  · show n * twoTo k < twoTo (n.log2 + k + 1)
    rw [Nat.add_right_comm, twoTo_add]
    exact Nat.mul_lt_mul_of_pos_right hhi (twoTo_pos k)

/-! ## Rounding -/

/-- The whole number nearest to a quotient; of two equally near, the even one. -/
def divRound (n d : Nat) : Nat :=
  let whole := n / d
  let rest := n % d
  if d < 2 * rest ∨ (2 * rest = d ∧ whole % 2 = 1) then whole + 1 else whole

/-- The nearest number that has at most 53 binary digits before its last zeros. -/
def round (n : Nat) : Nat :=
  let step := twoTo (n.log2 - 52)
  divRound n step * step

@[simp] theorem divRound_one (n : Nat) : divRound n 1 = n := by
  simp only [divRound, Nat.div_one, Nat.mod_one]
  simp

/-- A quotient that comes out even is left alone. -/
theorem divRound_mul (n : Nat) {d : Nat} (h : 0 < d) : divRound (n * d) d = n := by
  simp only [divRound, Nat.mul_div_cancel n h, Nat.mul_mod_left]
  rw [if_neg]
  omega

/-- A number of at most 53 binary digits is its own rounding. -/
theorem round_of_lt {n : Nat} (h : n < twoTo 53) : round n = n := by
  have hs : n.log2 - 52 = 0 := by
    by_cases hn : n = 0
    · subst hn
      rfl
    · have := (log2_lt hn).mpr h
      omega
  have one : twoTo 0 = 1 := rfl
  simp only [round, hs, one, divRound_one, Nat.mul_one]

theorem divRound_mul_mul (n d : Nat) {c : Nat} (h : 0 < c) :
    divRound (n * c) (d * c) = divRound n d := by
  have hr : 2 * (n % d * c) = 2 * (n % d) * c := by rw [Nat.mul_assoc]
  simp only [divRound, Nat.mul_div_mul_right n d h, Nat.mul_mod_mul_right, hr,
    Nat.mul_lt_mul_right h, Nat.mul_left_inj (Nat.ne_of_gt h)]

/-- Rounding does not depend on the unit, as long as units are powers of two of each other. -/
theorem round_mul_twoTo (n k : Nat) : round (n * twoTo k) = round n * twoTo k := by
  by_cases hn : n = 0
  · subst hn
    simp [round, divRound]
  have hl := log2_mul_twoTo hn k
  by_cases h : 52 ≤ n.log2
  · have hs : (n * twoTo k).log2 - 52 = n.log2 - 52 + k := by omega
    simp only [round, hs, twoTo_add]
    rw [divRound_mul_mul n _ (twoTo_pos k), Nat.mul_assoc]
  · have hlt : n < twoTo 53 := (log2_lt hn).mp (by omega)
    obtain ⟨i, hi⟩ : ∃ i, k = i + ((n * twoTo k).log2 - 52) :=
      ⟨k - ((n * twoTo k).log2 - 52), by omega⟩
    have hm : n * twoTo k = n * twoTo i * twoTo ((n * twoTo k).log2 - 52) := by
      rw [Nat.mul_assoc, ← twoTo_add, ← hi]
    rw [round_of_lt hlt]
    simp only [round]
    generalize (n * twoTo k).log2 - 52 = j at hm
    rw [hm, divRound_mul _ (twoTo_pos j)]

/-! ## Whole numbers as doubles -/

/-- The whole numbers that are too large to become doubles begin here. -/
def ceiling : Nat := twoTo 1024

/-- The double nearest to a whole number, if there is one: its value, again a whole number. -/
def ofNat? (n : Nat) : Option Nat :=
  if round n < ceiling then some (round n) else none

/-! ## Units -/

/-- One, in units. -/
def one : Nat := twoTo 1074

/-- What is beyond every double, in units; it stands for infinity. -/
def infinity : Nat := ceiling * one

/-- The double nearest to a number of units. -/
def nearest (units : Nat) : Nat :=
  min (round units) infinity

/-- The sum of two doubles, in units. -/
def add (a b : Nat) : Nat :=
  nearest (a + b)

/-- The size of a double in units, whatever its sign; what is no number has the size of infinity. -/
def units (x : Float) : Nat :=
  let bits := x.toBits.toNat
  let fraction := bits % twoTo 52
  let power := bits / twoTo 52 % twoTo 11
  if power = 2047 then infinity
  else if power = 0 then fraction
  else (twoTo 52 + fraction) * twoTo (power - 1)

/-- Whether a double is below zero or is the negative zero. -/
def isNegative (x : Float) : Bool :=
  x.toBits.toNat / twoTo 63 = 1

/-- The whole number next to a finite double on the side of zero. -/
def truncate (x : Float) : Int :=
  let whole : Int := (units x / one : Nat)
  if isNegative x then -whole else whole

end SingleFlight.Double
