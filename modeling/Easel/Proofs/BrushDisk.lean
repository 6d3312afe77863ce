import Easel.Proofs.CheckedStrokes
import Easel.Proofs.Stamping
import Mathlib.Algebra.Ring.Int.Parity
import Mathlib.Order.Bounds.Basic

/-!
# The disk of a brush

Only the offsets that lead to the canvas are tried when a brush paints, and still it paints its
whole disk, as far as that is on the canvas, wherever the centre is (`Canvas.stamp_paints_disk`).
The radius comes from the greatest odd width that the size of the brush allows (`IsWidth`). A
coordinate is within reach exactly if a column of the canvas is not farther from it than the radius
(`reach_iff`), so that no stamp from elsewhere changes anything (`Canvas.stamp_of_far`).
-/

namespace Easel

/-- The width of a brush of some size: the greatest odd number that is not above the size, or one if
the size is less than one. -/
def IsWidth (size width : ℤ) : Prop :=
  if size < 1 then width = 1 else IsGreatest {n | Odd n ∧ n ≤ size} width

/-- The width of a brush is what the size says. -/
lemma isWidth_brushWidth (size : ℤ) : IsWidth size (brushWidth size) := by
  rw [IsWidth, brushWidth]
  split
  · split <;> omega
  · refine ⟨⟨Int.odd_iff.mpr (by split <;> omega), by split <;> omega⟩, ?_⟩
    rintro n ⟨odd, le⟩
    rw [Int.odd_iff] at odd
    split <;> omega

/-- A brush has one width only. -/
lemma IsWidth.eq {size width : ℤ} (isWidth : IsWidth size width) : brushWidth size = width := by
  have isWidth' := isWidth_brushWidth size
  rw [IsWidth] at isWidth isWidth'
  split at isWidth
  · next small =>
    rw [if_pos small] at isWidth'
    rw [isWidth, isWidth']
  · next large =>
    rw [if_neg large] at isWidth'
    exact isWidth'.unique isWidth

/-- A brush reaches half of its width without the centre. -/
lemma IsWidth.radius {size width : ℤ} (isWidth : IsWidth size width) :
    (brushRadius size : ℤ) = (width - 1) / 2 := by
  obtain ⟨positive, -⟩ := brushWidth_odd size
  rw [brushRadius, isWidth.eq]
  rw [isWidth.eq] at positive
  omega

/-- The radius of a brush is what its width has on each side of the centre. -/
lemma IsWidth.brushRadius_eq {size width : ℤ} {radius : ℕ} (isWidth : IsWidth size width)
    (half : (radius : ℤ) = (width - 1) / 2) : brushRadius size = radius := by
  have := isWidth.radius
  omega

/-- A coordinate is within reach exactly if one of the canvas is not farther away than the
radius. -/
lemma reach_iff {size : ℕ} (nonempty : 0 < size) (radius : ℕ) (n : ℤ) :
    reachFirst radius ≤ n ∧ n ≤ reachLast size radius ↔
      ∃ m : ℤ, (0 ≤ m ∧ m < size) ∧ |m - n| ≤ radius := by
  simp only [reachFirst, reachLast, abs_le]
  constructor
  · rintro ⟨low, high⟩
    -- the nearest coordinate of the canvas
    exact ⟨max 0 (min n (size - 1)), by omega, by omega⟩
  · rintro ⟨m, inside, near⟩
    omega

namespace Canvas

variable (c : Canvas) (centre : Point) (color : Color) {brush : ℤ}

/-- From outside of its reach, a brush paints nothing. -/
lemma stamp_of_far {radius : ℕ} (same : brushRadius brush = radius)
    (far : ¬ ((reachFirst radius ≤ centre.x ∧ centre.x ≤ reachLast c.size radius) ∧
      reachFirst radius ≤ centre.y ∧ centre.y ≤ reachLast c.size radius)) :
    c.stamp centre color brush = c := by
  have none : disk c.size centre radius = [] :=
    List.eq_nil_iff_forall_not_mem.mpr fun q mem => far (reach_of_mem_disk mem)
  rw [stamp, same, stampDisk, none]
  rfl

/-- A stamp gives its color to the cells of its disk, and changes no other cell. -/
lemma get?_stamp (q : Point) :
    (c.stamp centre color brush).get? q =
      if c.contains q ∧ (q.x - centre.x) ^ 2 + (q.y - centre.y) ^ 2 ≤ (brushRadius brush : ℤ) ^ 2
      then some color else c.get? q := by
  have touched : q ∈ disk c.size centre (brushRadius brush) ∧ c.contains q ↔
      c.contains q ∧ q.InDisk centre (brushRadius brush) := by
    rw [mem_disk, contains, isSome_cellIndex?]
    tauto
  rw [stamp, stampDisk, get?_paint]
  simp only [touched, Point.InDisk]

/-- A brush paints the disk around its centre, as far as that is on the canvas, and nothing else.
The radius is what the width of the brush has on each side of the centre. The canvas stays as it is
if a coordinate of the centre is out of reach, and a coordinate is within reach if and only if the
canvas has one that is not farther away than the radius. On canvases with fewer than `2 ^ 63` cells,
machine words are enough for centres up to `2 ^ 33` and brushes up to `2 ^ 31`. -/
theorem stamp_paints_disk {width : ℤ} {radius : ℕ} (isWidth : IsWidth brush width)
    (half : (radius : ℤ) = (width - 1) / 2) :
    let stamped := c.stamp centre color brush
    (stamped.size = c.size ∧ stamped.background = c.background) ∧
    (∀ q, stamped.get? q =
      if c.contains q ∧ (q.x - centre.x) ^ 2 + (q.y - centre.y) ^ 2 ≤ (radius : ℤ) ^ 2
      then some color else c.get? q) ∧
    (¬ ((reachFirst radius ≤ centre.x ∧ centre.x ≤ reachLast c.size radius) ∧
      reachFirst radius ≤ centre.y ∧ centre.y ≤ reachLast c.size radius) → stamped = c) ∧
    (0 < c.size → ∀ n, reachFirst radius ≤ n ∧ n ≤ reachLast c.size radius ↔
      ∃ m : ℤ, (0 ≤ m ∧ m < c.size) ∧ |m - n| ≤ radius) ∧
    (c.size ^ 2 < 2 ^ 63 → Checked.Within (2 ^ 33) centre → -2 ^ 31 ≤ brush → brush ≤ 2 ^ 31 →
      Checked.stamp c centre color brush = some stamped) := by
  intro stamped
  have same := isWidth.brushRadius_eq half
  refine ⟨⟨size_paint .., background_paint ..⟩, fun q => ?_, c.stamp_of_far centre color same,
    fun nonempty n => reach_iff nonempty radius n, fun square near low high => ?_⟩
  · rw [← same]
    exact c.get?_stamp centre color q
  · exact Checked.stamp_eq (Checked.size_lt_of_square square) near low high

/-- A brush of an even size whose centre is just off the canvas. -/
theorem stamp_paints_disk_aside :
    let c := blank 4 .white
    IsWidth 4 3 ∧ (c.stamp ⟨-1, 1⟩ .red 4).get? ⟨0, 1⟩ = some .red ∧
      (c.stamp ⟨-1, 1⟩ .red 4).get? ⟨0, 0⟩ = some .white ∧ c.stamp ⟨-2, 1⟩ .red 4 = c ∧
      Checked.stamp c ⟨-1, 1⟩ .red 4 = some (c.stamp ⟨-1, 1⟩ .red 4) := by
  intro c
  have isWidth : IsWidth 4 3 := isWidth_brushWidth 4
  have half : ((1 : ℕ) : ℤ) = (3 - 1) / 2 := by decide
  obtain ⟨-, disk, -, -, words⟩ := c.stamp_paints_disk ⟨-1, 1⟩ .red isWidth half
  obtain ⟨-, -, far, -⟩ := c.stamp_paints_disk ⟨-2, 1⟩ .red isWidth half
  refine ⟨isWidth, ?_, ?_, far (by decide), words (by decide) ?_ (by decide) (by decide)⟩
  · rw [disk]
    decide
  · rw [disk]
    decide
  · unfold Checked.Within
    decide

end Canvas

end Easel
