import Easel.Proofs.ShortestDecimal
import Mathlib

/-!
# Rounding to doubles

The result of an operation on doubles is the exact result, rounded (`rounded`): to the nearest
multiple of a power of two that leaves 53 bits, and to the even one of two that are equally near.
Rounding is off by a relative error of at most `2 ^ -53` (`rounded_near`), and not at all for
integers of 53 bits (`rounded_int`).

Mantissas are shifted to the right with two more bits, which tell on which side of a half the part
lies that is cut off (`Marks`). That is enough to round in the end as if nothing had been cut off
(`value?_roundWithAccuracy`).
-/

namespace Easel.Number

open Float.Model Float.Model.UnpackedFloat

/-- The nearest integer; a half goes to the even one. -/
def roundEven (q : ℚ) : ℤ :=
  if Int.fract q < 1 / 2 then ⌊q⌋
  else if 1 / 2 < Int.fract q then ⌊q⌋ + 1
  else ⌊q⌋ + ⌊q⌋ % 2

/-- Rounding to an integer is off by at most one half. -/
lemma roundEven_near (q : ℚ) : |(roundEven q : ℚ) - q| ≤ 1 / 2 := by
  have parts := Int.floor_add_fract q
  have low := Int.fract_nonneg q
  have high := Int.fract_lt_one q
  rw [abs_le, roundEven]
  split_ifs with below above
  · constructor <;> linarith
  · push_cast
    constructor <;> linarith
  · rcases Int.emod_two_eq_zero_or_one ⌊q⌋ with even | odd
    · rw [even]
      push_cast
      constructor <;> linarith
    · rw [odd]
      push_cast
      constructor <;> linarith

/-- Integers are not rounded. -/
lemma roundEven_intCast (n : ℤ) : roundEven n = n := by
  rw [roundEven, Int.fract_intCast, Int.floor_intCast, if_pos (by norm_num)]

/-- Rounding does not pass an integer from below. -/
lemma roundEven_le {q : ℚ} {n : ℤ} (le : q ≤ n) : roundEven q ≤ n := by
  have near := (abs_le.mp (roundEven_near q)).2
  have : (roundEven q : ℚ) < n + 1 := by linarith
  exact Int.lt_add_one_iff.mp (by exact_mod_cast this)

/-- Rounding to an integer keeps the order. -/
lemma roundEven_mono {q r : ℚ} (le : q ≤ r) : roundEven q ≤ roundEven r := by
  rcases le.lt_or_eq with less | rfl
  · have near := (abs_le.mp (roundEven_near q)).2
    have near' := (abs_le.mp (roundEven_near r)).1
    have : (roundEven q : ℚ) < roundEven r + 1 := by linarith
    exact Int.lt_add_one_iff.mp (by exact_mod_cast this)
  · exact le_rfl

/-- The exponent of the unit to which a number is rounded. -/
def quantum (q : ℚ) : ℤ := max (Int.log 2 |q| - 52) (-1074)

/-- The double nearest to a number, as a number, if it is not too large. -/
def rounded (q : ℚ) : ℚ :=
  SignType.sign q * roundEven (|q| / 2 ^ quantum q) * 2 ^ quantum q

/-- Powers of two are positive. -/
lemma two_zpow_pos (e : ℤ) : (0 : ℚ) < 2 ^ e := zpow_pos (by norm_num) e

/-- Exponents add up. -/
lemma two_zpow_add (e k : ℤ) : (2 : ℚ) ^ (e + k) = 2 ^ e * 2 ^ k := zpow_add₀ (by norm_num) e k

/-- A greater exponent gives a greater power of two. -/
lemma two_zpow_le {e k : ℤ} (le : e ≤ k) : (2 : ℚ) ^ e ≤ 2 ^ k :=
  zpow_le_zpow_right₀ (by norm_num) le

/-- Zero is not rounded. -/
@[simp]
lemma rounded_zero : rounded 0 = 0 := by
  simp [rounded]

/-- Rounding does not depend on the sign. -/
lemma rounded_neg (q : ℚ) : rounded (-q) = -rounded q := by
  simp [rounded, quantum, Left.sign_neg]

/-- Rounding is off by at most half a unit. -/
lemma rounded_near_quantum (q : ℚ) : |rounded q - q| ≤ 2 ^ quantum q / 2 := by
  have unit := two_zpow_pos (quantum q)
  have scaled : rounded q - q =
      SignType.sign q * (roundEven (|q| / 2 ^ quantum q) - |q| / 2 ^ quantum q) *
        2 ^ quantum q := by
    have whole : q = SignType.sign q * |q| := (sign_mul_abs q).symm
    rw [rounded, mul_sub, sub_mul, mul_assoc _ (|q| / _), div_mul_cancel₀ _ unit.ne', ← whole]
  have sign : |(SignType.sign q : ℚ)| ≤ 1 := by
    cases SignType.sign q <;> simp
  rw [scaled, abs_mul, abs_mul, abs_of_pos unit]
  calc _ ≤ 1 * (1 / 2) * (2 : ℚ) ^ quantum q := by
        gcongr
        exact roundEven_near _
    _ = 2 ^ quantum q / 2 := by ring

/-- The relative error of rounding, for numbers that are not too small. -/
lemma rounded_near {q : ℚ} (large : 2 ^ (-1022 : ℤ) ≤ |q|) :
    |rounded q - q| ≤ 2 ^ (-53 : ℤ) * |q| := by
  have positive : 0 < |q| := (two_zpow_pos _).trans_le large
  have log := Int.zpow_log_le_self (b := 2) (by norm_num) positive
  have le : (-1022 : ℤ) ≤ Int.log 2 |q| :=
    (Int.zpow_le_iff_le_log (by norm_num) positive).mp (by exact_mod_cast large)
  have unit : quantum q = Int.log 2 |q| - 52 := max_eq_left (by omega)
  calc |rounded q - q| ≤ 2 ^ quantum q / 2 := rounded_near_quantum q
    _ = 2 ^ (-53 : ℤ) * 2 ^ Int.log 2 |q| := by
      rw [unit, sub_eq_add_neg, two_zpow_add]
      norm_num
      ring
    _ ≤ 2 ^ (-53 : ℤ) * |q| := by
      gcongr
      exact_mod_cast log

/-- The error of rounding, by the size of the number. -/
lemma rounded_near_of_lt {q : ℚ} {k : ℤ} (small : |q| < 2 ^ k) (least : 1 ≤ k) :
    |rounded q - q| ≤ 2 ^ (k - 54) := by
  have unit : quantum q ≤ k - 53 := by
    rcases eq_or_ne q 0 with rfl | nonzero
    · simp only [quantum, abs_zero, Int.log_zero_right]
      omega
    · have log : Int.log 2 |q| < k :=
        (Int.lt_zpow_iff_log_lt (by norm_num) (abs_pos.mpr nonzero)).mp (by exact_mod_cast small)
      rw [quantum]
      omega
  calc |rounded q - q| ≤ 2 ^ quantum q / 2 := rounded_near_quantum q
    _ ≤ 2 ^ (k - 53) / 2 := by
      gcongr
      norm_num
    _ = 2 ^ (k - 54) := by
      rw [show k - 53 = k - 54 + 1 by ring, two_zpow_add]
      norm_num

/-- A multiple of the unit is left as it is. -/
lemma rounded_eq {q : ℚ} {n : ℤ} (multiple : |q| = n * 2 ^ quantum q) : rounded q = q := by
  rw [rounded, multiple, mul_div_cancel_right₀ _ (two_zpow_pos _).ne', roundEven_intCast, mul_assoc,
    ← multiple]
  exact sign_mul_abs q

/-- The binary logarithm of a number between two neighbouring powers of two. -/
lemma log_eq {q : ℚ} {k : ℤ} (low : 2 ^ k ≤ q) (high : q < 2 ^ (k + 1)) : Int.log 2 q = k := by
  have positive : 0 < q := (two_zpow_pos k).trans_le low
  have least : k ≤ Int.log 2 q :=
    (Int.zpow_le_iff_le_log (by norm_num) positive).mp (by exact_mod_cast low)
  have greatest : Int.log 2 q < k + 1 :=
    (Int.lt_zpow_iff_log_lt (by norm_num) positive).mp (by exact_mod_cast high)
  omega

/-- Integers of 53 bits are left as they are. -/
lemma rounded_int {n : ℤ} (small : |n| < 2 ^ 53) : rounded n = n := by
  rcases eq_or_ne n 0 with rfl | nonzero
  · simp
  have magnitude : |(n : ℚ)| = (|n| : ℤ) := by push_cast; rfl
  have positive : 0 < |(n : ℚ)| := by positivity
  have less : Int.log 2 |(n : ℚ)| < 53 := by
    refine (Int.lt_zpow_iff_log_lt (by norm_num) positive).mp ?_
    rw [magnitude]
    exact_mod_cast small
  have unit : quantum n ≤ 0 := by
    rw [quantum]
    omega
  refine rounded_eq (n := |n| * 2 ^ (-quantum n).toNat) ?_
  rw [magnitude]
  push_cast
  rw [mul_assoc, ← zpow_natCast, Int.toNat_of_nonneg (by omega), ← two_zpow_add, neg_add_cancel,
    zpow_zero, mul_one]

/-- One is not rounded. -/
lemma rounded_one : rounded 1 = 1 := by
  exact_mod_cast rounded_int (n := 1) (by norm_num)

/-- A number lies where a mantissa says and its two additional bits: on it, in the middle between it
and the next one, or on one side of the middle. -/
def Marks (em : ExtendedMantissa) (y : ℚ) : Prop :=
  match em.roundBit, em.stickyBit with
  | false, false => y = em.mantissa
  | false, true => em.mantissa < y ∧ y < em.mantissa + 1 / 2
  | true, false => y = em.mantissa + 1 / 2
  | true, true => em.mantissa + 1 / 2 < y ∧ y < em.mantissa + 1

namespace Marks

variable {em : ExtendedMantissa} {y : ℚ}

/-- A natural number lies on its mantissa. -/
lemma exact (m : ℕ) : Marks (.ofMantissaAndAccuracy m .exact) m := rfl

/-- The additional bits tell how the rest of a division compares to half of the divisor. -/
lemma fraction (n : ℕ) {d : ℕ} (positive : 0 < d) :
    Marks (.ofMantissaAndAccuracy (n / d) (accuracyOfFraction (n % d) d)) (n / d) := by
  have whole : ((n / d : ℕ) : ℚ) * d + (n % d : ℕ) = n := by exact_mod_cast Nat.div_add_mod' n d
  have divisor : (0 : ℚ) < d := by exact_mod_cast positive
  have rest : (n : ℚ) / d = (n / d : ℕ) + (n % d : ℕ) / d := by
    rw [← whole]
    field_simp
  have less : ((n % d : ℕ) : ℚ) < d := by exact_mod_cast Nat.mod_lt n positive
  rw [accuracyOfFraction]
  split_ifs with none
  · simp [Marks, ExtendedMantissa.ofMantissaAndAccuracy, rest, none]
  · have some : (0 : ℚ) < (n % d : ℕ) := by exact_mod_cast Nat.pos_of_ne_zero none
    cases side : compare (2 * (n % d)) d with
    | lt =>
      have half : 2 * ((n % d : ℕ) : ℚ) < d := by exact_mod_cast Nat.compare_eq_lt.mp side
      simp only [Marks, ExtendedMantissa.ofMantissaAndAccuracy, rest]
      refine ⟨by linarith [div_pos some divisor], ?_⟩
      have : ((n % d : ℕ) : ℚ) / d < 1 / 2 := by
        rw [div_lt_iff₀ divisor]
        linarith
      linarith
    | eq =>
      have half : 2 * ((n % d : ℕ) : ℚ) = d := by exact_mod_cast Nat.compare_eq_eq.mp side
      simp only [Marks, ExtendedMantissa.ofMantissaAndAccuracy, rest]
      rw [add_right_inj, div_eq_iff divisor.ne']
      linarith
    | gt =>
      have half : (d : ℚ) < 2 * (n % d : ℕ) := by exact_mod_cast Nat.compare_eq_gt.mp side
      simp only [Marks, ExtendedMantissa.ofMantissaAndAccuracy, rest]
      have : 1 / 2 < ((n % d : ℕ) : ℚ) / d := by
        rw [lt_div_iff₀ divisor]
        linarith
      have : ((n % d : ℕ) : ℚ) / d < 1 := by rwa [div_lt_one divisor]
      constructor <;> linarith

/-- The mantissa is not greater than the number. -/
lemma le (marks : Marks em y) : em.mantissa ≤ y := by
  obtain ⟨m, r, s⟩ := em
  cases r <;> cases s <;> simp only [Marks] at marks <;> linarith

/-- The mantissa is less than the number by less than one. -/
lemma lt (marks : Marks em y) : y < em.mantissa + 1 := by
  obtain ⟨m, r, s⟩ := em
  cases r <;> cases s <;> simp only [Marks] at marks <;> linarith

/-- The bit that a shift cuts off goes before those that were there. -/
lemma shiftRightOne (marks : Marks em y) : Marks em.shiftRightOne (y / 2) := by
  obtain ⟨m, r, s⟩ := em
  have halves : ((m % 2 : ℕ) : ℚ) + 2 * (m / 2 : ℕ) = m := by exact_mod_cast Nat.mod_add_div m 2
  rcases Nat.mod_two_eq_zero_or_one m with even | odd
  · rw [even] at halves
    push_cast at halves
    cases r <;> cases s <;> simp [Marks, ExtendedMantissa.shiftRightOne, even] at marks ⊢ <;>
      (try constructor) <;> linarith
  · rw [odd] at halves
    push_cast at halves
    cases r <;> cases s <;> simp [Marks, ExtendedMantissa.shiftRightOne, odd] at marks ⊢ <;>
      (try constructor) <;> linarith

/-- Halving keeps what is known of a number. -/
lemma shiftRight (marks : Marks em y) (n : ℕ) : Marks (em >>> n) (y / 2 ^ n) := by
  induction n with
  | zero =>
    rw [pow_zero, div_one]
    exact marks
  | succ n ih =>
    rw [pow_succ, ← div_div]
    exact ih.shiftRightOne

/-- The bits are enough to round. -/
lemma roundedMantissa (marks : Marks em y) : (em.roundedMantissa : ℤ) = roundEven y := by
  have floor : ⌊y⌋ = em.mantissa :=
    Int.floor_eq_iff.mpr ⟨by exact_mod_cast marks.le, by exact_mod_cast marks.lt⟩
  have fract : Int.fract y = y - em.mantissa := by
    rw [Int.fract, floor]
    norm_cast
  rw [roundEven, fract, floor]
  obtain ⟨m, r, s⟩ := em
  cases r <;> cases s <;> simp only [Marks] at marks <;>
    simp only [ExtendedMantissa.roundedMantissa, ExtendedMantissa.accuracy,
      Accuracy.roundToNearestEven]
  · rw [if_pos (by rw [marks]; norm_num)]
  · rw [if_pos (by linarith)]
  · rw [if_neg (by rw [marks]; norm_num), if_neg (by rw [marks]; norm_num)]
    norm_cast
  · rw [if_neg (by linarith), if_pos (by linarith)]
    norm_cast

end Marks

/-- The rational number that an unpacked double is, if it is finite. -/
def value? : UnpackedFloat → Option ℚ
  | .zero _ => some 0
  | .finite s m e _ => some (s.apply m * 2 ^ e)
  | _ => none

/-- An unpacked double is finite, and has the form that a packed one has. -/
def Settled : UnpackedFloat → Prop
  | .zero _ => True
  | .finite _ m e _ => Canonical m e
  | _ => False

/-- A sign is a factor. -/
lemma cast_apply (s : Sign) (n : ℤ) : ((s.apply n : ℤ) : ℚ) = s.apply 1 * n := by
  cases s <;> simp [Sign.apply]

/-- A positive number takes the sign that it is given. -/
lemma sign_apply (s : Sign) {q : ℚ} (positive : 0 < q) :
    (SignType.sign ((s.apply 1 : ℤ) * q : ℚ) : ℚ) = (s.apply 1 : ℤ) := by
  cases s <;> simp [Sign.apply, positive]

/-- The absolute value does not depend on the sign. -/
lemma abs_apply (s : Sign) {q : ℚ} (positive : 0 < q) : |((s.apply 1 : ℤ) : ℚ) * q| = q := by
  cases s <;> simp [Sign.apply, positive.le]

/-- The exponent to which a mantissa is shifted. -/
lemma targetExponent_eq (m : ℕ) (e : ℤ) :
    Format.binary64.targetExponent (totalExponent m e) = max (m.log2 + e - 52) (-1074) := by
  simp only [Format.targetExponent, totalExponent, Format.mantissaBits, Format.minExponent]
  norm_num
  omega

/-- That exponent is the one of the unit to which the number is rounded. -/
lemma quantum_eq {m : ℕ} {e : ℤ} {y : ℚ} (nonzero : m ≠ 0) (low : m ≤ y) (high : y < m + 1) :
    quantum (y * 2 ^ e) = max (m.log2 + e - 52) (-1074) := by
  have least : (2 : ℚ) ^ m.log2 ≤ m := by exact_mod_cast Nat.log2_self_le nonzero
  have greatest : (m : ℚ) + 1 ≤ 2 ^ (m.log2 + 1) := by exact_mod_cast Nat.lt_log2_self
  have scale := two_zpow_pos e
  have positive : 0 < y * 2 ^ e := mul_pos (by linarith [pow_pos (two_pos (α := ℚ)) m.log2]) scale
  have log : Int.log 2 (y * 2 ^ e) = m.log2 + e := by
    refine log_eq ?_ ?_
    · rw [two_zpow_add, zpow_natCast]
      gcongr
      linarith
    · rw [show (m.log2 + e + 1 : ℤ) = ((m.log2 + 1 : ℕ) : ℤ) + e by push_cast; ring, two_zpow_add,
        zpow_natCast]
      gcongr
      linarith
  rw [quantum, abs_of_pos positive, log]

/-- A rounded mantissa can have one bit too many, but then the last bit is zero. -/
lemma carry {n : ℕ} {t : ℤ} (le : n ≤ 2 ^ 53) (least : -1074 ≤ t)
    (hidden : -1074 < t → 2 ^ 52 ≤ n) :
    let shifted := shiftToTargetExponent .binary64 n t .exact
    (shifted.1.mantissa : ℚ) * 2 ^ shifted.2 = n * 2 ^ t ∧
      Canonical shifted.1.mantissa shifted.2 := by
  intro shifted
  have whole : 2 * hiddenBit = 2 ^ 53 := rfl
  -- only a mantissa of all ones is carried over, and then it is a power of two
  rcases le.lt_or_eq with less | rfl
  · have bits : n.log2 ≤ 52 := by
      rcases eq_or_ne n 0 with rfl | nonzero
      · decide
      · exact Nat.lt_succ_iff.mp ((Nat.log2_lt nonzero).mpr less)
    have stays : shifted = (⟨n, false, false⟩, t) := by
      have none : (Format.binary64.targetExponent (totalExponent n t) - t).toNat = 0 := by
        rw [targetExponent_eq]
        omega
      simp only [shifted, shiftToTargetExponent, shiftToExponent, none]
      simp only [Nat.cast_zero, add_zero]
      rfl
    rw [stays]
    exact ⟨rfl, whole ▸ less, least, hidden⟩
  · have moves : shifted = (⟨2 ^ 52, false, false⟩, t + 1) := by
      have one : (Format.binary64.targetExponent (totalExponent (2 ^ 53) t) - t).toNat = 1 := by
        rw [targetExponent_eq, Nat.log2_two_pow]
        omega
      simp only [shifted, shiftToTargetExponent, shiftToExponent, one]
      rfl
    rw [moves]
    refine ⟨?_, by norm_num [hiddenBit_eq], by omega, fun _ => le_refl _⟩
    rw [two_zpow_add]
    push_cast
    ring

/-- Rounding a number with a sign rounds its absolute value to a multiple of its quantum. -/
lemma rounded_apply (s : Sign) {q : ℚ} (positive : 0 < q) :
    rounded ((s.apply 1 : ℤ) * q) =
      (s.apply 1 : ℤ) * (roundEven (q / 2 ^ quantum q) * 2 ^ quantum q) := by
  rw [rounded, quantum, sign_apply s positive, abs_apply s positive, quantum, abs_of_pos positive,
    mul_assoc]

/-- The bounds of a mantissa after rounding. -/
lemma roundEven_bounds {q : ℚ} (positive : 0 < q) :
    roundEven (q / 2 ^ quantum q) ≤ 2 ^ 53 ∧
      (-1074 < quantum q → 2 ^ 52 ≤ roundEven (q / 2 ^ quantum q)) := by
  have near := abs_le.mp (roundEven_near (q / 2 ^ quantum q))
  have unit := two_zpow_pos (quantum q)
  have less := Int.lt_zpow_succ_log_self (b := 2) (by norm_num) q
  have least := Int.zpow_log_le_self (b := 2) (by norm_num) positive
  push_cast at less least
  constructor
  · have scaled : q / 2 ^ quantum q < 2 ^ 53 := by
      rw [div_lt_iff₀ unit]
      calc q < 2 ^ (Int.log 2 q + 1) := less
        _ ≤ 2 ^ (53 + quantum q) := two_zpow_le (by rw [quantum, abs_of_pos positive]; omega)
        _ = 2 ^ 53 * 2 ^ quantum q := two_zpow_add _ _
    have : (roundEven (q / 2 ^ quantum q) : ℚ) < 2 ^ 53 + 1 := by linarith
    have : roundEven (q / 2 ^ quantum q) < 2 ^ 53 + 1 := by exact_mod_cast this
    omega
  · intro normal
    have exponent : quantum q = Int.log 2 q - 52 := by
      rw [quantum, abs_of_pos positive] at normal ⊢
      omega
    have scaled : 2 ^ 52 ≤ q / 2 ^ quantum q := by
      rw [le_div_iff₀ unit, exponent]
      calc (2 : ℚ) ^ 52 * 2 ^ (Int.log 2 q - 52) = 2 ^ (52 + (Int.log 2 q - 52)) :=
            (two_zpow_add _ _).symm
        _ = 2 ^ Int.log 2 q := by rw [add_sub_cancel]
        _ ≤ q := least
    have : (2 : ℚ) ^ 52 - 1 < roundEven (q / 2 ^ quantum q) := by linarith
    have : 2 ^ 52 - 1 < roundEven (q / 2 ^ quantum q) := by exact_mod_cast this
    omega

/-- Rounding a positive number rounds it to a multiple of its quantum. -/
lemma rounded_of_pos {q : ℚ} (positive : 0 < q) :
    rounded q = roundEven (q / 2 ^ quantum q) * 2 ^ quantum q := by
  rw [rounded, sign_pos positive, abs_of_pos positive, SignType.coe_one, one_mul]

/-- Rounding does not make a number negative. -/
lemma rounded_nonneg {q : ℚ} (nonneg : 0 ≤ q) : 0 ≤ rounded q := by
  rcases nonneg.lt_or_eq with positive | rfl
  · rw [rounded_of_pos positive]
    have : roundEven 0 ≤ roundEven (q / 2 ^ quantum q) := roundEven_mono (by positivity)
    have zero : roundEven 0 = 0 := by exact_mod_cast roundEven_intCast 0
    rw [zero] at this
    have : (0 : ℚ) ≤ roundEven (q / 2 ^ quantum q) := by exact_mod_cast this
    positivity
  · exact rounded_zero.ge

/-- Rounding keeps the order of positive numbers. If the units differ, there is a power of two
between the numbers. -/
lemma rounded_le_of_pos {q r : ℚ} (positive : 0 < q) (le : q ≤ r) : rounded q ≤ rounded r := by
  have positive' := positive.trans_le le
  have log : Int.log 2 q ≤ Int.log 2 r := Int.log_mono_right positive le
  have units : quantum q ≤ quantum r := by
    rw [quantum, quantum, abs_of_pos positive, abs_of_pos positive']
    omega
  rw [rounded_of_pos positive, rounded_of_pos positive']
  -- with different units, the power of two below the greater number lies between both
  rcases units.lt_or_eq with less | same
  · have exponent : quantum r = Int.log 2 r - 52 ∧ -1074 < quantum r ∧
        Int.log 2 q + 1 ≤ Int.log 2 r := by
      rw [quantum, quantum, abs_of_pos positive, abs_of_pos positive'] at less
      rw [quantum, abs_of_pos positive']
      omega
    obtain ⟨exponent, normal, higher⟩ := exponent
    have power : (2 : ℚ) ^ Int.log 2 r = (2 ^ (Int.log 2 r - quantum q).toNat : ℤ) *
        2 ^ quantum q := by
      push_cast
      rw [← zpow_natCast, Int.toNat_of_nonneg (by omega), ← two_zpow_add, sub_add_cancel]
    have below : q ≤ 2 ^ Int.log 2 r :=
      (Int.lt_zpow_succ_log_self (b := 2) (by norm_num) q).le.trans (two_zpow_le higher)
    have small : roundEven (q / 2 ^ quantum q) ≤ 2 ^ (Int.log 2 r - quantum q).toNat := by
      apply roundEven_le
      rw [div_le_iff₀ (two_zpow_pos _), ← power]
      exact below
    have large := (roundEven_bounds positive').2 normal
    calc (roundEven (q / 2 ^ quantum q) : ℚ) * 2 ^ quantum q
        ≤ (2 ^ (Int.log 2 r - quantum q).toNat : ℤ) * 2 ^ quantum q := by
          gcongr
      _ = 2 ^ Int.log 2 r := power.symm
      _ = 2 ^ 52 * 2 ^ quantum r := by
        rw [exponent, ← zpow_natCast, ← two_zpow_add]
        congr 1
        push_cast
        ring
      _ ≤ roundEven (r / 2 ^ quantum r) * 2 ^ quantum r := by
        gcongr
        exact_mod_cast large
  · rw [same]
    gcongr
    exact_mod_cast roundEven_mono (by gcongr)

/-- Rounding keeps the order. -/
lemma rounded_mono {q r : ℚ} (le : q ≤ r) : rounded q ≤ rounded r := by
  rcases lt_or_ge 0 q with positive | nonpos
  · exact rounded_le_of_pos positive le
  · rcases le_or_gt 0 r with nonneg | negative
    · have := rounded_nonneg (q := -q) (by linarith)
      rw [rounded_neg] at this
      linarith [rounded_nonneg nonneg]
    · have := rounded_le_of_pos (q := -r) (r := -q) (by linarith) (by linarith)
      rw [rounded_neg, rounded_neg] at this
      linarith

/-- A mantissa with its additional bits is rounded as the number is for which it stands. -/
lemma value?_roundWithAccuracy (s : Sign) {m : ℕ} {e : ℤ} {a : Accuracy} {y : ℚ}
    (marks : Marks (.ofMantissaAndAccuracy m a) y) (nonzero : m ≠ 0)
    (fine : e ≤ max (m.log2 + e - 52) (-1074)) :
    Settled (roundWithAccuracy .binary64 s m e a) ∧
      value? (roundWithAccuracy .binary64 s m e a) =
        some (rounded ((s.apply 1 : ℤ) * (y * 2 ^ e))) := by
  have mantissa : (ExtendedMantissa.ofMantissaAndAccuracy m a).mantissa = m := by
    rcases a with _ | (_ | _ | _) <;> rfl
  have low : m ≤ y := by simpa [mantissa] using marks.le
  have high : y < m + 1 := by simpa [mantissa] using marks.lt
  have positive : 0 < y * 2 ^ e := by
    have : (0 : ℚ) < m := by exact_mod_cast Nat.pos_of_ne_zero nonzero
    exact mul_pos (by linarith) (two_zpow_pos e)
  have unit := quantum_eq (e := e) nonzero low high
  rw [← unit] at fine
  -- the first shift leads to the unit of rounding
  have exponent : (shiftToTargetExponent .binary64 m e a).2 = quantum (y * 2 ^ e) := by
    simp only [shiftToTargetExponent, shiftToExponent, targetExponent_eq, ← unit]
    omega
  have shifted : Marks (shiftToTargetExponent .binary64 m e a).1
      (y * 2 ^ e / 2 ^ quantum (y * 2 ^ e)) := by
    have moved := marks.shiftRight (quantum (y * 2 ^ e) - e).toNat
    have same : y / 2 ^ (quantum (y * 2 ^ e) - e).toNat =
        y * 2 ^ e / 2 ^ quantum (y * 2 ^ e) := by
      rw [← zpow_natCast, Int.toNat_of_nonneg (by omega), zpow_sub₀ (by norm_num)]
      field_simp
    simp only [shiftToTargetExponent, shiftToExponent, targetExponent_eq, ← unit]
    rwa [same] at moved
  have bounds := roundEven_bounds positive
  rw [← shifted.roundedMantissa] at bounds
  -- the second shift takes the bit away that rounding may have added
  obtain ⟨value, canonical⟩ :=
    carry (n := (shiftToTargetExponent .binary64 m e a).1.roundedMantissa)
      (t := quantum (y * 2 ^ e)) (by omega) (le_max_right _ _) (by omega)
  rw [rounded_apply s positive, ← shifted.roundedMantissa, Int.cast_natCast, ← value]
  simp only [roundWithAccuracy, exponent]
  split
  · next none => simp [Settled, value?, none]
  · next some =>
    refine ⟨canonical, ?_⟩
    rw [value?, cast_apply, mul_assoc]
    rfl

/-- Doubling adds to the logarithm. -/
lemma log2_shiftLeft {m : ℕ} (nonzero : m ≠ 0) (k : ℕ) : (m <<< k).log2 = m.log2 + k := by
  have least := Nat.log2_self_le nonzero
  have less := Nat.lt_log2_self (n := m)
  rw [Nat.shiftLeft_eq, Nat.log2_eq_iff (by positivity)]
  refine ⟨?_, ?_⟩
  · rw [pow_add]
    exact Nat.mul_le_mul_right _ least
  · rw [Nat.add_right_comm, pow_add]
    exact Nat.mul_lt_mul_of_pos_right less (by positivity)

/-- Doubling makes up for a smaller exponent. -/
lemma cast_shiftLeft (m k : ℕ) (e : ℤ) : ((m <<< k : ℕ) : ℚ) * 2 ^ (e - k) = m * 2 ^ e := by
  rw [Nat.shiftLeft_eq, Nat.cast_mul, Nat.cast_pow, Nat.cast_ofNat, ← zpow_natCast, mul_assoc,
    ← two_zpow_add, add_sub_cancel]

/-- A number given by its bits and its exponent is rounded once. -/
lemma value?_round (s : Sign) {m : ℕ} (e : ℤ) (nonzero : m ≠ 0) :
    Settled (UnpackedFloat.round .binary64 s m e) ∧
      value? (UnpackedFloat.round .binary64 s m e) =
        some (rounded ((s.apply 1 : ℤ) * (m * 2 ^ e))) := by
  let k := (e - max (m.log2 + e - 52) (-1074)).toNat
  have bits := log2_shiftLeft nonzero k
  have rest := value?_roundWithAccuracy s (.exact (m <<< k)) (e := e - k)
    (by rw [Nat.shiftLeft_eq]; positivity) (by rw [bits]; omega)
  rw [cast_shiftLeft] at rest
  rw [UnpackedFloat.round, targetExponent_eq]
  exact rest

/-- An integer times a power of two is rounded. -/
lemma value?_normalize (n e : ℤ) :
    Settled (normalize .binary64 n e .positive) ∧
      value? (normalize .binary64 n e .positive) = some (rounded (n * 2 ^ e)) := by
  rw [UnpackedFloat.normalize]
  rcases lt_trichotomy n 0 with negative | rfl | positive
  · have magnitude : (((-n).toNat : ℕ) : ℚ) = -n := by
      exact_mod_cast Int.toNat_of_nonneg (by omega : 0 ≤ -n)
    have rest := value?_round .negative (m := (-n).toNat) e (by omega)
    rw [Int.compare_eq_lt.mpr negative]
    simpa [Sign.apply, magnitude] using rest
  · simp [Settled, value?]
  · have magnitude : ((n.toNat : ℕ) : ℚ) = n := by
      exact_mod_cast Int.toNat_of_nonneg positive.le
    have rest := value?_round .positive (m := n.toNat) e (by omega)
    rw [Int.compare_eq_gt.mpr positive]
    simpa [Sign.apply, magnitude] using rest

/-- What has the form of a double need not be rounded. -/
lemma rounded_settled {u : UnpackedFloat} {q : ℚ} (settled : Settled u)
    (value : value? u = some q) : rounded q = q := by
  cases u with
  | infinity | notANumber => cases settled
  | zero s =>
    cases value
    exact rounded_zero
  | finite s m e positive =>
    cases value
    have number : (0 : ℚ) < m * 2 ^ e := mul_pos (by exact_mod_cast positive) (two_zpow_pos e)
    have unit : quantum (m * 2 ^ e) = e := by
      have less : m.log2 < 53 := (Nat.log2_lt positive.ne').mpr settled.mantissa_lt
      have least := settled.exponent_ge
      have normal : -1074 < e → 52 ≤ m.log2 :=
        fun greater => (Nat.le_log2 positive.ne').mpr (settled.hidden greater)
      rw [quantum_eq positive.ne' le_rfl (lt_add_one _)]
      omega
    rw [cast_apply, mul_assoc, Int.cast_natCast, rounded_apply s number, unit,
      mul_div_cancel_right₀ _ (two_zpow_pos e).ne', show (m : ℚ) = (m : ℤ) from rfl,
      roundEven_intCast]

end Easel.Number
