import Easel.Canvas.Circle
import Mathlib.Algebra.Order.Round
import Mathlib.Analysis.Real.Sqrt
import Mathlib.Tactic.Lemma

/-!
# The columns nearest to a circle

The column offset in a row of a circle is the integer nearest to a square root (`nearestColumn`). It
is known by bounds on its square (`nearestRoot_nearestColumn`), from which the shape of an eighth of
a circle follows (`exists_octant`): as long as no row is greater than its column, the columns fall
by at most one from row to row, and the last such row is at the diagonal or just before it.
-/

namespace Easel

/-- The column offset of the cell nearest to a circle in the row at offset `y`, without errors. It
is negative in the rows beyond the circle. -/
noncomputable def nearestColumn (radius y : ℤ) : ℤ :=
  let square := radius * radius - y * y
  if square < 0 then -1 else round √(square : ℝ)

/-- The shape of an eighth of a circle that has the rows from zero to `last`. -/
structure Octant (column : ℤ → ℤ) (radius : ℕ) (last : ℤ) : Prop where
  start : column 0 = radius
  falls : ∀ {y z}, 0 ≤ y → y ≤ z → column z ≤ column y
  rows : ∀ {y}, 0 ≤ y → (y ≤ column y ↔ y ≤ last)
  gentle : ∀ {y}, 0 ≤ y → y < last → column y ≤ column (y + 1) + 1
  diagonal : column last ≤ last + 1

/-- An integer is nearest to the square root of another. -/
structure NearestRoot (n x : ℤ) : Prop where
  nonneg : 0 ≤ x
  le : n ≤ x * (x + 1)
  lt : 0 < x → x * (x - 1) < n

namespace NearestRoot

/-- There are no ties, as the middle between two integers is not the root of an integer. -/
lemma round_sqrt {n : ℤ} (nonneg : 0 ≤ n) : NearestRoot n (round √(n : ℝ)) := by
  have near := abs_le.mp (abs_sub_round √(n : ℝ))
  have square : √(n : ℝ) * √(n : ℝ) = n := Real.mul_self_sqrt (by exact_mod_cast nonneg)
  have root := Real.sqrt_nonneg (n : ℝ)
  generalize round √(n : ℝ) = x at *
  generalize √(n : ℝ) = s at *
  have low : 0 ≤ x := by
    have above : (-1 : ℝ) < x := by linarith
    exact Int.lt_iff_add_one_le.mp (by exact_mod_cast above)
  refine ⟨low, ?_, fun positive => ?_⟩
  · have less : (n : ℝ) < x * (x + 1) + 1 := by nlinarith
    exact Int.lt_add_one_iff.mp (by exact_mod_cast less)
  · have one : (1 : ℝ) ≤ x := by exact_mod_cast positive
    have less : (x : ℝ) * (x - 1) < n := by nlinarith
    exact_mod_cast less

variable {m n x y : ℤ}

/-- Nearest roots keep the order. -/
lemma mono (root : NearestRoot m x) (root' : NearestRoot n y) (le : m ≤ n) : x ≤ y := by
  by_contra less
  have nonneg := root'.nonneg
  have below := root'.le
  have above := root.lt (by omega)
  nlinarith

/-- The square of the integer is off by no more than the integer. -/
lemma abs_sub_le (root : NearestRoot n x) (nonneg : 0 ≤ n) : |x * x - n| ≤ x := by
  have below := root.le
  rw [abs_le]
  rcases root.nonneg.eq_or_lt with rfl | positive
  · omega
  · have above := root.lt positive
    constructor <;> nlinarith

end NearestRoot

variable {radius : ℕ} {y z : ℤ}

/-- There are no columns beyond the radius. -/
lemma nearestColumn_beyond (beyond : radius < y) : nearestColumn radius y = -1 := by
  have outside : (radius : ℤ) * radius - y * y < 0 := by nlinarith
  rw [nearestColumn, if_pos outside]

/-- The octant does not go beyond the radius. -/
lemma le_of_le_nearestColumn (low : 0 ≤ y) (inside : y ≤ nearestColumn radius y) : y ≤ radius := by
  by_contra beyond
  rw [nearestColumn_beyond (not_le.mp beyond)] at inside
  omega

/-- The column of a row is the nearest root of what is left of the square of the radius. -/
lemma nearestRoot_nearestColumn (low : 0 ≤ y) (high : y ≤ radius) :
    NearestRoot (radius * radius - y * y) (nearestColumn radius y) := by
  have inside : 0 ≤ (radius : ℤ) * radius - y * y := by nlinarith
  rw [nearestColumn, if_neg (not_lt.mpr inside)]
  exact .round_sqrt inside

/-- In the row of the centre, the column is the radius. -/
lemma nearestColumn_zero : nearestColumn radius 0 = radius := by
  have square : (radius : ℤ) * radius - 0 * 0 = radius * radius := by ring
  rw [nearestColumn, square, if_neg (not_lt.mpr (mul_self_nonneg _))]
  push_cast
  rw [Real.sqrt_mul_self (Nat.cast_nonneg radius), round_natCast]

/-- Columns do not grow with the rows. -/
lemma nearestColumn_falls (low : 0 ≤ y) (le : y ≤ z) :
    nearestColumn radius z ≤ nearestColumn radius y := by
  rcases le_or_gt z radius with high | beyond
  · exact (nearestRoot_nearestColumn (low.trans le) high).mono
      (nearestRoot_nearestColumn low (le.trans high)) (by nlinarith)
  · rw [nearestColumn_beyond beyond]
    rcases le_or_gt y radius with high | beyond
    · have := (nearestRoot_nearestColumn low high).nonneg
      omega
    · rw [nearestColumn_beyond beyond]

/-- Up to the diagonal the columns fall by at most one. -/
lemma nearestColumn_gentle (low : 0 ≤ y) (inside : y + 1 ≤ nearestColumn radius (y + 1)) :
    nearestColumn radius y ≤ nearestColumn radius (y + 1) + 1 := by
  by_contra falls
  have high := le_of_le_nearestColumn (by omega) inside
  have here : y ≤ radius := by omega
  have below := (nearestRoot_nearestColumn (by omega) high).le
  have above := (nearestRoot_nearestColumn low here).lt (by omega)
  nlinarith

/-- The columns come down to the diagonal. -/
lemma nearestColumn_diagonal (low : 0 ≤ y) (inside : y ≤ nearestColumn radius y)
    (ended : nearestColumn radius (y + 1) < y + 1) : nearestColumn radius y ≤ y + 1 := by
  by_contra far
  have above := (nearestRoot_nearestColumn low (le_of_le_nearestColumn low inside)).lt (by omega)
  have next : y + 1 ≤ radius := by nlinarith
  have root := nearestRoot_nearestColumn (by omega) next
  have nonneg := root.nonneg
  have below := root.le
  nlinarith

/-- The nearest columns form an eighth of a circle. -/
lemma exists_octant (radius : ℕ) : ∃ last, Octant (nearestColumn radius) radius last := by
  have bounded : ∀ y, 0 ≤ y ∧ y ≤ nearestColumn radius y → y ≤ radius := fun y both =>
    le_of_le_nearestColumn both.1 both.2
  have first : 0 ≤ nearestColumn radius 0 := by
    rw [nearestColumn_zero]
    omega
  obtain ⟨last, ⟨low, inside⟩, greatest⟩ :=
    Int.exists_greatest_of_bdd ⟨(radius : ℤ), bounded⟩ ⟨0, le_rfl, first⟩
  have ended : nearestColumn radius (last + 1) < last + 1 := by
    by_contra goesOn
    have := greatest (last + 1) ⟨by omega, not_lt.mp goesOn⟩
    omega
  have rows {y : ℤ} (nonneg : 0 ≤ y) : y ≤ nearestColumn radius y ↔ y ≤ last := by
    refine ⟨fun inside => greatest y ⟨nonneg, inside⟩, fun le => ?_⟩
    exact (le.trans inside).trans (nearestColumn_falls nonneg le)
  exact ⟨last, nearestColumn_zero, nearestColumn_falls, rows,
    fun low less => nearestColumn_gentle low ((rows (by omega)).mpr less),
    nearestColumn_diagonal low inside ended⟩

end Easel
