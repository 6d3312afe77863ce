import Easel.Number.Shortest
import Mathlib.Algebra.Order.Field.Power
import Mathlib.Algebra.Order.Field.Rat
import Mathlib.Tactic.FieldSimp
import Mathlib.Tactic.Lemma
import Mathlib.Tactic.Linarith
import Mathlib.Tactic.NormNum.Pow
import Mathlib.Tactic.Positivity
import Mathlib.Tactic.Ring

/-!
# The shortest decimal tells doubles apart

The decimal that a double is written with lies in the interval of the double
(`shortest_holds`): a decimal of a grid is only taken if the interval holds it, and the grid of
seventeen digits is finer than any interval is wide. The intervals of different doubles have no
number in common (`holds_unique`), so the decimal belongs to one double only.

All of this is said of mantissas and exponents as doubles have them (`Canonical`), in rational
numbers.
-/

namespace Easel.Number

/-- A mantissa and an exponent as a finite double has them: there is a hidden bit, unless the
exponent is the least one. -/
structure Canonical (mantissa : Nat) (exponent : Int) : Prop where
  mantissa_lt : mantissa < 2 * hiddenBit
  exponent_ge : -1074 ≤ exponent
  hidden : -1074 < exponent → hiddenBit ≤ mantissa

/-- The hidden bit in figures. -/
lemma hiddenBit_eq : hiddenBit = 4503599627370496 := rfl

/-- A power with an integer exponent is a quotient of two powers. -/
lemma zpow_eq_div (b : ℚ) (e : Int) : b ^ e = b ^ e.toNat / b ^ (-e).toNat := by
  rcases Int.le_total 0 e with nonneg | nonpos
  · have none : (-e).toNat = 0 := by omega
    rw [none, pow_zero, div_one, ← zpow_natCast, Int.toNat_of_nonneg nonneg]
  · have none : e.toNat = 0 := by omega
    rw [none, pow_zero, one_div, ← zpow_natCast, ← zpow_neg,
      Int.toNat_of_nonneg (by omega), neg_neg]

/-- The rational number that a decimal is. -/
def Decimal.value (d : Decimal) : ℚ := d.digits * 10 ^ d.exponent

/-- A last zero digit counts for nothing. -/
lemma Decimal.value_reduce (d : Decimal) : d.reduce.value = d.value := by
  rw [reduce]
  split
  · next last =>
    have digits : d.digits = d.digits / 10 * 10 := by omega
    rw [value, value, zpow_add_one₀ (by norm_num), digits]
    push_cast
    rw [Nat.mul_div_cancel _ (by norm_num)]
    ring
  · rfl

namespace Interval

/-- The interval holds a rational number. -/
def Holds (i : Interval) (x : ℚ) : Prop :=
  if i.closed then i.low ≤ x * i.denominator ∧ x * i.denominator ≤ i.high
  else i.low < x * i.denominator ∧ x * i.denominator < i.high

/-- An interval holds what is strictly between its ends. -/
lemma Holds.of_lt {i : Interval} {x : ℚ} (low : i.low < x * i.denominator)
    (high : x * i.denominator < i.high) : i.Holds x := by
  rw [Holds]
  split
  · exact ⟨low.le, high.le⟩
  · exact ⟨low, high⟩

variable {i : Interval} {g : Int}

/-- What a decimal is over the denominator of the interval. -/
lemma value_mul_denominator (n : Nat) : Decimal.value ⟨n, g⟩ * i.denominator =
    n * (i.denominator * 10 ^ g.toNat) / 10 ^ (-g).toNat := by
  rw [Decimal.value, zpow_eq_div]
  ring

/-- The test in whole numbers is one of the decimal. -/
lemma holds_iff {n : Nat} :
    i.holds (n * (i.denominator * Nat.pow 10 g.toNat)) (Nat.pow 10 (-g).toNat) ↔
      i.Holds (Decimal.value ⟨n, g⟩) := by
  have positive : (0 : ℚ) < 10 ^ (-g).toNat := by positivity
  rw [holds, Holds, value_mul_denominator, le_div_iff₀ positive, div_le_iff₀ positive,
    lt_div_iff₀ positive, div_lt_iff₀ positive]
  simp only [Nat.pow_eq]
  split <;> rw [Bool.and_eq_true, decide_eq_true_eq, decide_eq_true_eq] <;> norm_cast

/-- A decimal that is found on a grid is in the interval. -/
lemma holds_of_onGrid? {d : Decimal} (found : i.onGrid? g = some d) : i.Holds d.value := by
  simp only [onGrid?] at found
  split at found
  · next lower =>
    cases found
    exact holds_iff.mp (Bool.and_eq_true_iff.mp lower).1
  · split at found
    · next upper =>
      cases found
      exact holds_iff.mp upper
    · cases found

/-- How many steps of a grid are below the value. -/
def steps (i : Interval) (g : Int) : Nat :=
  i.value * Nat.pow 10 (-g).toNat / (i.denominator * Nat.pow 10 g.toNat)

/-- If nothing is found, both neighbours of the value on the grid are outside of the interval. -/
lemma not_holds_of_onGrid? (missing : i.onGrid? g = none) :
    ¬ i.Holds (Decimal.value ⟨i.steps g, g⟩) ∧ ¬ i.Holds (Decimal.value ⟨i.steps g + 1, g⟩) := by
  rw [← holds_iff, ← holds_iff]
  simp only [onGrid?] at missing
  split at missing
  · cases missing
  · next lower =>
    split at missing
    · cases missing
    · next upper =>
      refine ⟨fun held => lower ?_, upper⟩
      rw [Bool.and_eq_true, Bool.or_eq_true, Bool.not_eq_true']
      exact ⟨held, .inl (Bool.eq_false_of_not_eq_true upper)⟩

/-- The value of an interval is between two neighbours on each grid. -/
lemma steps_bounds (positive : 0 < i.denominator) :
    Decimal.value ⟨i.steps g, g⟩ * i.denominator ≤ i.value ∧
      i.value < Decimal.value ⟨i.steps g + 1, g⟩ * i.denominator := by
  have step : 0 < i.denominator * 10 ^ g.toNat := Nat.mul_pos positive (by positivity)
  have unit : (0 : ℚ) < 10 ^ (-g).toNat := by positivity
  have below : i.steps g * (i.denominator * 10 ^ g.toNat) ≤ i.value * 10 ^ (-g).toNat :=
    Nat.div_mul_le_self _ _
  have above : i.value * 10 ^ (-g).toNat < (i.steps g + 1) * (i.denominator * 10 ^ g.toNat) := by
    rw [Nat.mul_comm (i.steps g + 1)]
    exact Nat.lt_mul_div_succ _ step
  rw [value_mul_denominator, value_mul_denominator, div_le_iff₀ unit, lt_div_iff₀ unit]
  exact ⟨by exact_mod_cast below, by exact_mod_cast above⟩

/-- A grid that is finer than the interval is wide has a decimal in it. -/
lemma onGrid?_ne_none (positive : 0 < i.denominator) (low : i.low < i.value)
    (high : i.value < i.high) (fine : 10 ^ g * i.denominator < (i.high : ℚ) - i.low) :
    i.onGrid? g ≠ none := by
  intro missing
  obtain ⟨below, above⟩ := @steps_bounds i g positive
  obtain ⟨noLower, noUpper⟩ := not_holds_of_onGrid? missing
  have low' : (i.low : ℚ) < i.value := by exact_mod_cast low
  have high' : (i.value : ℚ) < i.high := by exact_mod_cast high
  have step : Decimal.value ⟨i.steps g + 1, g⟩ = Decimal.value ⟨i.steps g, g⟩ + 10 ^ g := by
    simp only [Decimal.value]
    push_cast
    ring
  have lower : Decimal.value ⟨i.steps g, g⟩ * i.denominator ≤ i.low :=
    not_lt.mp fun held => noLower (.of_lt held (below.trans_lt high'))
  have upper : i.high ≤ Decimal.value ⟨i.steps g + 1, g⟩ * i.denominator :=
    not_lt.mp fun held => noUpper (.of_lt (low'.trans above) held)
  rw [step, add_mul] at upper
  linarith

end Interval

/-- A number has no more digits than are counted. -/
lemma lt_pow_digitCount (n : Nat) : n < 10 ^ digitCount n :=
  (Nat.length_toDigits_le_iff (by norm_num) Nat.length_toDigits_pos).mp le_rfl

/-- A number has no fewer digits than are counted. -/
lemma pow_digitCount_le {n : Nat} (positive : 0 < n) : 10 ^ (digitCount n - 1) ≤ n := by
  by_contra less
  rcases Nat.eq_zero_or_pos (digitCount n - 1) with one | more
  · rw [one] at less
    omega
  · have shorter := (Nat.length_toDigits_le_iff (by norm_num) more).mpr (not_le.mp less)
    have := Nat.length_toDigits_pos (b := 10) (n := n)
    rw [digitCount] at shorter
    omega

/-- The magnitude of a quotient gives a power of ten that is not greater. -/
lemma pow_magnitude_le {numerator denominator : Nat} (top : 0 < numerator)
    (bottom : 0 < denominator) :
    (10 : ℚ) ^ (magnitude numerator denominator - 1) * denominator ≤ numerator := by
  rw [magnitude]
  split
  · next le =>
    have digits := pow_digitCount_le (Nat.div_pos le bottom)
    have some : 0 < digitCount (numerator / denominator) := Nat.length_toDigits_pos
    have bound : 10 ^ (digitCount (numerator / denominator) - 1) * denominator ≤ numerator :=
      (Nat.mul_le_mul_right _ digits).trans (Nat.div_mul_le_self _ _)
    rw [show (digitCount (numerator / denominator) : Int) - 1 =
      (digitCount (numerator / denominator) - 1 : Nat) by omega, zpow_natCast]
    exact_mod_cast bound
  · next greater =>
    have digits := lt_pow_digitCount ((denominator - 1) / numerator)
    have bound : denominator ≤ numerator * 10 ^ digitCount ((denominator - 1) / numerator) := by
      rw [Nat.div_lt_iff_lt_mul top, Nat.mul_comm] at digits
      omega
    rw [show (1 : Int) - digitCount ((denominator - 1) / numerator) - 1 =
      -(digitCount ((denominator - 1) / numerator) : Int) by omega, zpow_neg, zpow_natCast,
      inv_mul_le_iff₀ (by positivity), mul_comm]
    exact_mod_cast bound

/-- How far the interval goes down, in quarters of the last place. -/
def lowQuarters (mantissa : Nat) (exponent : Int) : Nat :=
  4 * mantissa - if mantissa = hiddenBit ∧ -1074 < exponent then 1 else 2

variable {m m' : Nat} {e e' : Int} {x : ℚ}

/-- The denominator of an interval is positive. -/
lemma denominator_pos : 0 < (interval m e).denominator := by
  simp only [interval, Nat.shiftLeft_eq]
  positivity

/-- Shifted numbers are fractions with the denominator of the interval. -/
lemma shiftLeft_eq (n : Nat) : ((n <<< (e - 2).toNat : Nat) : ℚ) =
    n * 2 ^ (e - 2) * (interval m e).denominator := by
  have positive : (0 : ℚ) < 2 ^ (2 - e).toNat := by positivity
  rw [zpow_eq_div, neg_sub]
  simp only [interval, Nat.shiftLeft_eq]
  push_cast
  field_simp

/-- The lower end of the interval of a double. -/
lemma low_eq : ((interval m e).low : ℚ) =
    lowQuarters m e * 2 ^ (e - 2) * (interval m e).denominator :=
  shiftLeft_eq _

/-- The double in its interval. -/
lemma value_eq : ((interval m e).value : ℚ) =
    (4 * m : Nat) * 2 ^ (e - 2) * (interval m e).denominator :=
  shiftLeft_eq _

/-- The upper end of the interval of a double. -/
lemma high_eq : ((interval m e).high : ℚ) =
    (4 * m + 2 : Nat) * 2 ^ (e - 2) * (interval m e).denominator :=
  shiftLeft_eq _

/-- The interval of a double in quarters of the last place. -/
lemma holds_interval : (interval m e).Holds x ↔
    if m % 2 = 0 then
      lowQuarters m e * 2 ^ (e - 2) ≤ x ∧ x ≤ (4 * m + 2 : Nat) * 2 ^ (e - 2)
    else lowQuarters m e * 2 ^ (e - 2) < x ∧ x < (4 * m + 2 : Nat) * 2 ^ (e - 2) := by
  have positive : (0 : ℚ) < (interval m e).denominator := by exact_mod_cast denominator_pos
  rw [Interval.Holds, low_eq, high_eq, mul_le_mul_iff_left₀ positive,
    mul_le_mul_iff_left₀ positive, mul_lt_mul_iff_left₀ positive, mul_lt_mul_iff_left₀ positive]
  simp only [interval, decide_eq_true_eq]

/-- Where two intervals meet, one begins before the other ends, or just there if both have their
ends. -/
lemma begins_of_holds (held : (interval m e).Holds x) (held' : (interval m' e').Holds x) :
    (lowQuarters m' e' : ℚ) * 2 ^ (e' - 2) < (4 * m + 2 : Nat) * 2 ^ (e - 2) ∨
      (lowQuarters m' e' : ℚ) * 2 ^ (e' - 2) ≤ (4 * m + 2 : Nat) * 2 ^ (e - 2) ∧
        m % 2 = 0 ∧ m' % 2 = 0 := by
  rw [holds_interval] at held held'
  split at held
  · next even =>
    split at held'
    · next even' => exact .inr ⟨held'.1.trans held.2, even, even'⟩
    · exact .inl (held'.1.trans_le held.2)
  · split at held'
    · exact .inl (held'.1.trans_lt held.2)
    · exact .inl (held'.1.trans held.2)

/-- Intervals of one exponent meet only if they are the same. -/
lemma mantissa_le_of_holds (held : (interval m e).Holds x) (held' : (interval m' e).Holds x) :
    m' ≤ m := by
  have positive : (0 : ℚ) < 2 ^ (e - 2) := by positivity
  have begins := begins_of_holds held held'
  rw [mul_lt_mul_iff_left₀ positive, mul_le_mul_iff_left₀ positive, Nat.cast_lt,
    Nat.cast_le] at begins
  rw [lowQuarters] at begins
  split at begins <;> omega

/-- Intervals of different exponents do not meet. -/
lemma exponent_le_of_holds (c : Canonical m e) (c' : Canonical m' e')
    (held : (interval m e).Holds x) (held' : (interval m' e').Holds x) : e' ≤ e := by
  by_contra less
  have positive : (0 : ℚ) < 2 ^ (e - 2) := by positivity
  have double : (2 : ℚ) * 2 ^ (e - 2) ≤ 2 ^ (e' - 2) := by
    rw [mul_comm, ← zpow_add_one₀ (by norm_num)]
    exact zpow_le_zpow_right₀ (by norm_num) (by omega)
  have twice : ((2 * lowQuarters m' e' : Nat) : ℚ) * 2 ^ (e - 2) ≤
      lowQuarters m' e' * 2 ^ (e' - 2) := by
    push_cast
    calc (2 : ℚ) * lowQuarters m' e' * 2 ^ (e - 2)
        = lowQuarters m' e' * (2 * 2 ^ (e - 2)) := by ring
      _ ≤ lowQuarters m' e' * 2 ^ (e' - 2) := by gcongr
  have begins : 2 * lowQuarters m' e' < 4 * m + 2 ∨
      2 * lowQuarters m' e' ≤ 4 * m + 2 ∧ m % 2 = 0 ∧ m' % 2 = 0 := by
    rcases begins_of_holds held held' with lt | ⟨le, even⟩
    · exact .inl (by exact_mod_cast lt_of_mul_lt_mul_right (twice.trans_lt lt) positive.le)
    · exact .inr ⟨by exact_mod_cast le_of_mul_le_mul_right (twice.trans le) positive, even⟩
  -- the greatest mantissa is odd, and the next binade begins half a place after it
  have hidden := c'.hidden (by have := c.exponent_ge; omega)
  have small := c.mantissa_lt
  rw [lowQuarters] at begins
  rw [hiddenBit_eq] at *
  have := c.exponent_ge
  split at begins <;> omega

/-- No number is in the intervals of two doubles. -/
lemma holds_unique (c : Canonical m e) (c' : Canonical m' e')
    (held : (interval m e).Holds x) (held' : (interval m' e').Holds x) : m = m' ∧ e = e' := by
  have same : e = e' :=
    le_antisymm (exponent_le_of_holds c' c held' held) (exponent_le_of_holds c c' held held')
  subst same
  exact ⟨le_antisymm (mantissa_le_of_holds held' held) (mantissa_le_of_holds held held'), rfl⟩

/-- A double is strictly inside of its interval. -/
lemma ends_interval (positive : 0 < m) : (interval m e).low < (interval m e).value ∧
    (interval m e).value < (interval m e).high := by
  have scale : 0 < 2 ^ (e - 2).toNat := by positivity
  simp only [interval, Nat.shiftLeft_eq]
  constructor
  · apply Nat.mul_lt_mul_of_pos_right _ scale
    split <;> omega
  · exact Nat.mul_lt_mul_of_pos_right (by omega) scale

/-- A grid of seventeen digits is finer than the interval is wide. -/
lemma fine_of_canonical (c : Canonical m e) (positive : 0 < m) :
    (10 : ℚ) ^ (magnitude (interval m e).value (interval m e).denominator - 17) *
      (interval m e).denominator < (interval m e).high - (interval m e).low := by
  have unit : (0 : ℚ) < 2 ^ (e - 2) * (interval m e).denominator := by
    have := @denominator_pos m e
    positivity
  -- of a mantissa with 53 bits, the last place is more than the seventeenth digit
  have width : 4 * m + 10 ^ 16 * lowQuarters m e < 10 ^ 16 * (4 * m + 2) := by
    have small := c.mantissa_lt
    rw [lowQuarters]
    rw [hiddenBit_eq] at *
    split <;> omega
  have wide : ((4 * m : Nat) + 10 ^ 16 * lowQuarters m e : ℚ) < 10 ^ 16 * (4 * m + 2 : Nat) := by
    exact_mod_cast width
  have digits := pow_magnitude_le (Nat.zero_lt_of_lt (@ends_interval m e positive).1)
    (@denominator_pos m e)
  generalize magnitude (interval m e).value (interval m e).denominator = k at digits ⊢
  rw [show k - 1 = k - 17 + 16 by ring, zpow_add₀ (by norm_num), value_eq] at digits
  rw [high_eq, low_eq]
  have scaled := mul_lt_mul_of_pos_right wide unit
  rw [show (10 : ℚ) ^ (16 : Int) = 10 ^ 16 by norm_cast] at digits
  linarith

/-- The decimal that a double is written with is in its interval. -/
lemma shortest_holds (c : Canonical m e) (positive : 0 < m) :
    (interval m e).Holds (shortest m e).value := by
  simp only [shortest, Decimal.value_reduce]
  cases found : ((List.range 17).map fun n : Nat => magnitude (interval m e).value
      (interval m e).denominator - (n + 1 : Nat)).findSome? (interval m e).onGrid? with
  | some d =>
    obtain ⟨g, -, onGrid⟩ := List.exists_of_findSome?_eq_some found
    exact Interval.holds_of_onGrid? onGrid
  | none =>
    have missing := List.findSome?_eq_none_iff.mp found _ (List.mem_map.mpr ⟨16, by decide, rfl⟩)
    obtain ⟨low, high⟩ := @ends_interval m e positive
    exact absurd missing
      (Interval.onGrid?_ne_none denominator_pos low high (fine_of_canonical c positive))

/-- Neither is zero in the interval of a double that is not. -/
lemma shortest_pos (c : Canonical m e) (positive : 0 < m) : 0 < (shortest m e).value := by
  have held := holds_interval.mp (shortest_holds c positive)
  have low : 0 < lowQuarters m e := by
    rw [lowQuarters]
    split <;> omega
  have below : (0 : ℚ) < lowQuarters m e * 2 ^ (e - 2) := by positivity
  split at held
  · exact below.trans_le held.1
  · exact below.trans held.1

end Easel.Number
