import Easel.Canvas.Circle
import Easel.Proofs.Doubles

/-!
# Square roots of doubles

The root of a double is the integer root of a mantissa that was shifted far enough to the left, with
two more bits for what the integer root leaves (`sqrtCore_fine`). So it is known up to one unit of
the result, and it is not far above any number whose square is not less than the argument
(`is_sqrt_le`). In particular no column of a circle is beyond its radius (`octantColumn_le`), which
is all that is needed to know that the points of a circle are machine words.
-/

namespace Easel.Number

open Float.Model Float.Model.UnpackedFloat

/-- The additional bits of an integer root tell on which side of a half the rest lies, and with them
some number between the root and the next integer. -/
lemma exists_marks_sqrt (root rest : ℕ) :
    ∃ y : ℚ, root ≤ y ∧ y ≤ root + 1 ∧
      Marks (.ofMantissaAndAccuracy root
        (if rest = 0 then .exact else .inexact (if rest ≤ root then .lt else .gt))) y := by
  split_ifs with none below
  · exact ⟨root, le_rfl, by linarith, rfl⟩
  · refine ⟨root + 1 / 4, by linarith, by linarith, ?_⟩
    simp only [Marks, ExtendedMantissa.ofMantissaAndAccuracy]
    constructor <;> linarith
  · refine ⟨root + 3 / 4, by linarith, by linarith, ?_⟩
    simp only [Marks, ExtendedMantissa.ofMantissaAndAccuracy]
    constructor <;> linarith

/-- The core of a square root has at least the bits to which the root is rounded, and its square is
not greater than the number. -/
lemma sqrtCore_fine {m : ℕ} {e : ℤ} (positive : 0 < m) :
    let core := sqrtCore .binary64 m e
    core.1 ≠ 0 ∧ core.2.1 ≤ max (core.1.log2 + core.2.1 - 52) (-1074) ∧
      core.2.1 ≤ max ((m.log2 + e + 2) / 2 - 53) (-1074) ∧
      ((core.1 * 2 ^ core.2.1) ^ 2 : ℚ) ≤ m * 2 ^ e ∧
      ∃ y : ℚ, core.1 ≤ y ∧ y ≤ core.1 + 1 ∧
        Marks (.ofMantissaAndAccuracy core.1 core.2.2) y := by
  intro core
  let k := (e - 2 * core.2.1).toNat
  have exponent : core.2.1 = min (e / 2) (max ((m.log2 + e + 2) / 2 - 53) (-1074)) := by
    have half (n : ℤ) : n.ediv 2 = n / 2 := rfl
    simp only [core, sqrtCore, Format.targetExponent, totalExponent, Format.mantissaBits,
      Format.minExponent, half]
    norm_num
    omega
  have root : core.1 = Nat.sqrt (m <<< k) := rfl
  have shifted : m <<< k = m * 2 ^ k := Nat.shiftLeft_eq m k
  have power : 2 ^ m.log2 ≤ m := Nat.log2_self_le positive.ne'
  have nonzero : core.1 ≠ 0 := by
    rw [root, Ne, Nat.sqrt_eq_zero, shifted]
    positivity
  refine ⟨nonzero, ?_, by omega, ?_, exists_marks_sqrt core.1 _⟩
  · rcases le_or_gt core.2.1 (-1074) with low | high
    · omega
    · -- the shifted mantissa has at least 105 bits, so its root has at least 53
      have enough : 104 ≤ m.log2 + k := by omega
      have bits : 2 ^ 52 ≤ core.1 := by
        rw [root, Nat.le_sqrt, shifted]
        calc 2 ^ 52 * 2 ^ 52 = 2 ^ 104 := by norm_num
          _ ≤ 2 ^ (m.log2 + k) := Nat.pow_le_pow_right (by norm_num) enough
          _ = 2 ^ m.log2 * 2 ^ k := pow_add ..
          _ ≤ m * 2 ^ k := Nat.mul_le_mul_right _ power
      have : 52 ≤ core.1.log2 := (Nat.le_log2 nonzero).mpr bits
      omega
  · have square : ((core.1 * core.1 : ℕ) : ℚ) ≤ (m * 2 ^ k : ℕ) := by
      rw [root, ← shifted]
      exact_mod_cast Nat.sqrt_le (m <<< k)
    have scale : (2 : ℚ) ^ k * (2 ^ core.2.1 * 2 ^ core.2.1) = 2 ^ e := by
      rw [← zpow_natCast, Int.toNat_of_nonneg (by omega), ← two_zpow_add, ← two_zpow_add]
      congr 1
      ring
    push_cast at square
    calc ((core.1 : ℚ) * 2 ^ core.2.1) ^ 2
        = core.1 * core.1 * (2 ^ core.2.1 * 2 ^ core.2.1) := by ring
      _ ≤ m * 2 ^ k * (2 ^ core.2.1 * 2 ^ core.2.1) := by
        gcongr
      _ = m * 2 ^ e := by rw [mul_assoc, scale]

/-- A number below a power of two has no more bits before the point than the power. -/
lemma log2_add_lt {m : ℕ} {e k : ℤ} (positive : 0 < m) (small : (m : ℚ) * 2 ^ e < 2 ^ k) :
    m.log2 + e < k := by
  by_contra large
  have least : (2 : ℚ) ^ m.log2 ≤ m := by exact_mod_cast Nat.log2_self_le positive.ne'
  have : (2 : ℚ) ^ k ≤ m * 2 ^ e := by
    calc (2 : ℚ) ^ k ≤ 2 ^ ((m.log2 : ℤ) + e) := two_zpow_le (by omega)
      _ = 2 ^ m.log2 * 2 ^ e := by rw [two_zpow_add, zpow_natCast]
      _ ≤ m * 2 ^ e := by gcongr
  exact absurd small (not_lt.mpr this)

/-- The root of a number below `2 ^ 63` is at most a little above any number whose square is not
less. -/
lemma is_sqrt_le {x : Float} {q a : ℚ} (hx : Is x q) (positive : 0 < q) (small : q < 2 ^ 63)
    (nonneg : 0 ≤ a) (le : q ≤ a ^ 2) (limit : a < 2 ^ 32) :
    ∃ r, Is x.sqrt r ∧ 0 ≤ r ∧ r ≤ a + 2 ^ (-19 : ℤ) := by
  have form : x.sqrt.toModel.unpack =
      (pack (UnpackedFloat.sqrt .binary64 x.toModel.unpack)).unpack := rfl
  rw [Is] at hx
  cases unpacked : x.toModel.unpack with
  | infinity | notANumber =>
    rw [unpacked] at hx
    cases hx
  | zero s =>
    rw [unpacked] at hx
    cases hx
    exact absurd positive (lt_irrefl 0)
  | finite s m e posM =>
    rw [unpacked] at hx form
    cases hx
    obtain rfl : s = .positive := by
      cases s with
      | positive => rfl
      | negative =>
        have : (0 : ℚ) < m * 2 ^ e := mul_pos (by exact_mod_cast posM) (two_zpow_pos e)
        simp only [Sign.apply] at positive
        push_cast at positive
        linarith
    change (0 : ℚ) < m * 2 ^ e at positive
    change (m : ℚ) * 2 ^ e < 2 ^ 63 at small
    change (m : ℚ) * 2 ^ e ≤ a ^ 2 at le
    obtain ⟨nonzero, fine, coarse, square, y, low, high, marks⟩ := sqrtCore_fine (e := e) posM
    generalize core : sqrtCore .binary64 m e = c at nonzero fine coarse square low high marks
    obtain ⟨root, t, accuracy⟩ := c
    simp only at nonzero fine coarse square low high marks
    -- the argument has at most 63 bits before the point, so the unit of its root is below one
    have magnitude : (m.log2 : ℤ) + e < 63 := log2_add_lt posM (by exact_mod_cast small)
    have unit : (2 : ℚ) ^ t ≤ 2 ^ (-21 : ℤ) := two_zpow_le (by omega)
    have scale := two_zpow_pos t
    have below : (root : ℚ) * 2 ^ t ≤ a :=
      (pow_le_pow_iff_left₀ (by positivity) nonneg two_ne_zero).mp (square.trans le)
    have upper : y * 2 ^ t ≤ a + 2 ^ (-21 : ℤ) := by
      calc y * 2 ^ t ≤ (root + 1) * 2 ^ t := by gcongr
        _ = root * 2 ^ t + 2 ^ t := by ring
        _ ≤ a + 2 ^ (-21 : ℤ) := add_le_add below unit
    have lower : 0 ≤ y * 2 ^ t := mul_nonneg ((Nat.cast_nonneg root).trans low) scale.le
    have tiny : (2 : ℚ) ^ (-21 : ℤ) < 1 := by norm_num
    have bound : |y * 2 ^ t| < 2 ^ (33 : ℤ) := by
      rw [abs_of_nonneg lower]
      norm_num at limit ⊢
      linarith
    obtain ⟨settled, value⟩ := value?_roundWithAccuracy .positive marks nonzero fine
    rw [show ((Sign.apply .positive 1 : ℤ) : ℚ) = 1 from rfl, one_mul] at value
    have packed := packed_of_lt settled value (bound.trans_le
      ((two_zpow_le (by norm_num : (33 : ℤ) ≤ 1022)).trans_eq (zpow_natCast 2 1022)))
    refine ⟨rounded (y * 2 ^ t), ?_, rounded_nonneg lower, ?_⟩
    · rw [Is, form, UnpackedFloat.sqrt, core]
      exact packed
    · have off := (abs_le.mp (rounded_near_of_lt bound (by norm_num))).2
      norm_num at off upper ⊢
      linarith

/-- A natural number of 63 bits becomes the double nearest to it. -/
lemma is_rounded_ofInt {n : ℕ} (small : n < 2 ^ 63) : Is (Float.ofInt n) (rounded n) := by
  rcases lt_or_ge n (2 ^ 53) with exact | huge
  · rw [rounded_natCast exact]
    exact is_ofNat exact
  · obtain ⟨settled, value⟩ := value?_ofScientific (n := n) (by omega)
    have bound : |(n : ℚ)| < 2 ^ 1022 := by
      rw [Nat.abs_cast]
      exact_mod_cast small.trans (Nat.pow_lt_pow_right (by norm_num) (by norm_num))
    rw [ofInt_eq huge]
    exact packed_of_lt settled value bound

/-- Rounding does not bring a number below one, and makes it greater by a small part at most. -/
lemma rounded_bounds {q : ℚ} (one : 1 ≤ q) :
    1 ≤ rounded q ∧ rounded q ≤ (1 + 2 ^ (-53 : ℤ)) * q := by
  have size : |q| = q := abs_of_pos (by linarith)
  have large : 2 ^ (-1022 : ℤ) ≤ |q| := by
    rw [size]
    exact (two_zpow_le (by norm_num : (-1022 : ℤ) ≤ 0)).trans (by simpa using one)
  have near := rounded_near large
  rw [size] at near
  constructor
  · rw [← rounded_one]
    exact rounded_mono one
  · linarith [(abs_le.mp near).2]

/-- The root of a natural number is rounded to no more than a number whose square is not less. -/
lemma toInt_sqrt_le {n r : ℕ} (le : n ≤ r ^ 2) (limit : r ≤ 2 ^ 31) :
    0 ≤ toInt (Float.ofInt n).sqrt ∧ toInt (Float.ofInt n).sqrt ≤ r := by
  have size : n < 2 ^ 63 :=
    (le.trans (Nat.pow_le_pow_left limit 2)).trans_lt (by norm_num)
  rcases Nat.eq_zero_or_pos n with rfl | positive
  · exact ⟨by decide +kernel, by
      have zero : toInt (Float.ofInt (0 : ℕ)).sqrt = 0 := by decide +kernel
      rw [zero]
      exact Int.natCast_nonneg r⟩
  have radius : (r : ℚ) ≤ 2 ^ 31 := by exact_mod_cast limit
  have square : (n : ℚ) ≤ r ^ 2 := by exact_mod_cast le
  have one : (1 : ℚ) ≤ n := by exact_mod_cast positive
  -- rounding the argument makes the root greater by a relative error, which is far below one
  obtain ⟨least, off⟩ := rounded_bounds one
  let a : ℚ := (1 + 2 ^ (-53 : ℤ)) * r
  have above : rounded n ≤ a ^ 2 := by
    calc rounded n ≤ (1 + 2 ^ (-53 : ℤ)) * n := off
      _ ≤ (1 + 2 ^ (-53 : ℤ)) ^ 2 * r ^ 2 := by
        gcongr
        norm_num
      _ = a ^ 2 := by ring
  have bound : a ≤ r + 2 ^ (-22 : ℤ) := by
    have : (2 : ℚ) ^ (-53 : ℤ) * r ≤ 2 ^ (-53 : ℤ) * 2 ^ 31 := by gcongr
    simp only [a]
    norm_num at this ⊢
    linarith
  have huge : rounded n < 2 ^ 63 := by
    norm_num at bound
    nlinarith
  obtain ⟨v, is, nonneg, upper⟩ := is_sqrt_le (is_rounded_ofInt size) (by linarith) huge
    (by positivity) above (by norm_num at bound ⊢; linarith)
  have near := abs_le.mp (near_toInt is (by
    rw [abs_of_nonneg nonneg]
    norm_num at bound upper ⊢
    linarith))
  norm_num at bound upper
  have low : (-1 : ℚ) < toInt (Float.ofInt n).sqrt := by linarith
  have high : (toInt (Float.ofInt n).sqrt : ℚ) < r + 1 := by linarith
  have low' : -1 < toInt (Float.ofInt n).sqrt := by exact_mod_cast low
  have high' : toInt (Float.ofInt n).sqrt < r + 1 := by exact_mod_cast high
  omega

/-- No column of a circle is beyond its radius. -/
lemma octantColumn_le {radius : ℤ} (y : ℤ) (nonneg : 0 ≤ radius) (limit : radius ≤ 2 ^ 31) :
    -1 ≤ octantColumn radius y ∧ octantColumn radius y ≤ radius := by
  rw [octantColumn]
  split
  · omega
  · next inside =>
    obtain ⟨r, rfl⟩ := Int.eq_ofNat_of_zero_le nonneg
    obtain ⟨n, same⟩ := Int.eq_ofNat_of_zero_le (not_lt.mp inside)
    have le : n ≤ r ^ 2 := by
      have : (n : ℤ) ≤ r ^ 2 := by
        rw [← same]
        nlinarith
      exact_mod_cast this
    have bounds := toInt_sqrt_le le (by exact_mod_cast limit)
    rw [same]
    omega

end Easel.Number
