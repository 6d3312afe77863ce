import Easel.Proofs.BrushDisk
import Easel.Proofs.CallChecks
import Easel.Proofs.ExactClipping
import Easel.Proofs.PlainLine

/-!
# Lines in the eight directions

A line in one of the eight directions between neighbouring cells (`Direction.line`) is walked one
step of the direction after another (`Direction.mem_walk_line`), and it enters and leaves a square
at cells. So clipping in exact numbers leaves just those of its points that are in the square
(`Direction.clip?_line`), and such a line is drawn as by its whole walk (`Canvas.drawLineIn_line`).
For calls this says which cells are painted (`Instruction.drawLine_direction`).
-/

namespace Easel

/-- One of the eight directions between neighbouring cells, or none. -/
structure Direction where
  x : ℤ
  y : ℤ
  x_bounds : -1 ≤ x ∧ x ≤ 1
  y_bounds : -1 ≤ y ∧ y ≤ 1

namespace Direction

/-- The point that is `k` steps of a direction away. -/
def ahead (d : Direction) (p : Point) (k : ℤ) : Point := ⟨p.x + k * d.x, p.y + k * d.y⟩

/-- The opposite direction. -/
def opposite (d : Direction) : Direction where
  x := -d.x
  y := -d.y
  x_bounds := by have := d.x_bounds; omega
  y_bounds := by have := d.y_bounds; omega

/-- The line that goes `n` steps of a direction. -/
def line (d : Direction) (p : Point) (n : ℤ) : Segment := ⟨p, d.ahead p n⟩

variable (d : Direction) {p q : Point} {n k : ℤ}

/-- No step leads nowhere. -/
lemma ahead_zero : d.ahead p 0 = p := by simp [ahead]

/-- Steps one after another add up. -/
lemma ahead_ahead : d.ahead (d.ahead p n) k = d.ahead p (n + k) := by
  simp only [ahead, Point.mk.injEq]
  constructor <;> ring

/-- Steps in the opposite direction are steps back. -/
lemma ahead_opposite : d.opposite.ahead p k = d.ahead p (-k) := by
  simp [ahead, opposite]

/-- A direction goes left, right or neither. -/
lemma cases_x : d.x = -1 ∨ d.x = 0 ∨ d.x = 1 := by
  have := d.x_bounds
  omega

/-- A direction goes up, down or neither. -/
lemma cases_y : d.y = -1 ∨ d.y = 0 ∨ d.y = 1 := by
  have := d.y_bounds
  omega

/-- A line in one of the eight directions is straight. -/
lemma straight_line : (d.line p n).Straight := by
  simp only [Segment.Straight, Segment.width, Segment.height, line, ahead]
  rcases d.cases_x with x | x | x <;> rcases d.cases_y with y | y | y <;> simp only [x, y] <;> omega

section Walk

variable {n : ℕ}

/-- How wide a line in a direction is. -/
lemma width_line : (d.line p n).width = n * |d.x| := by
  rw [Segment.width_eq_abs, line, ahead, add_sub_cancel_left, abs_mul, Nat.abs_cast]

/-- How high a line in a direction is. -/
lemma height_line : (d.line p n).height = n * |d.y| := by
  rw [Segment.height_eq_abs, line, ahead, add_sub_cancel_left, abs_mul, Nat.abs_cast]

/-- A line in a direction has as many steps as it goes. -/
lemma steps_line (moves : d.x ≠ 0 ∨ d.y ≠ 0) : (d.line p n).steps = n := by
  rw [Segment.steps, width_line, height_line]
  rcases d.cases_x with x | x | x <;> rcases d.cases_y with y | y | y <;> simp [x, y] at moves ⊢

/-- Each step of a walk in a direction is a step of the direction, and the measure of how far the
line passes stays what it is at the start. -/
lemma next_line {k : ℤ} (positive : 0 < n) (moves : d.x ≠ 0 ∨ d.y ≠ 0) :
    (d.line p n).next ⟨d.ahead p k, (d.line p n).width - (d.line p n).height⟩ =
      ⟨d.ahead p (k + 1), (d.line p n).width - (d.line p n).height⟩ := by
  have sideX : (d.line p n).sideX = if 0 < d.x then 1 else -1 := by
    simp only [Segment.sideX, line, ahead]
    rcases d.cases_x with x | x | x <;> simp [x, positive]
  have sideY : (d.line p n).sideY = if 0 < d.y then 1 else -1 := by
    simp only [Segment.sideY, line, ahead]
    rcases d.cases_y with y | y | y <;> simp [y, positive]
  rw [Segment.next_eq, sideX, sideY, Segment.across, Segment.down, width_line, height_line]
  simp only [ahead, Point.shift, Segment.Step.mk.injEq, Point.mk.injEq]
  rcases d.cases_x with x | x | x <;> rcases d.cases_y with y | y | y <;>
    simp [x, y] at moves ⊢ <;> omega

/-- The walk along a line goes in its direction, and the error does not change. -/
lemma stepAfter_line (positive : 0 < n) (moves : d.x ≠ 0 ∨ d.y ≠ 0) (k : ℕ) :
    (d.line p n).stepAfter k =
      ⟨d.ahead p k, (d.line p n).width - (d.line p n).height⟩ := by
  induction k with
  | zero =>
    rw [Nat.cast_zero, ahead_zero]
    rfl
  | succ k ih =>
    rw [Segment.stepAfter, ih, d.next_line positive moves]
    rfl

/-- The walk along a line passes the cells ahead. -/
lemma mem_walk_line_natCast :
    q ∈ (d.line p n).walk ↔ ∃ k : ℤ, (0 ≤ k ∧ k ≤ n) ∧ d.ahead p k = q := by
  rw [Segment.mem_walk]
  by_cases going : 0 < n ∧ (d.x ≠ 0 ∨ d.y ≠ 0)
  · rw [d.steps_line going.2]
    simp only [d.stepAfter_line going.1 going.2]
    constructor
    · rintro ⟨k, le, here⟩
      exact ⟨k, ⟨Int.natCast_nonneg k, by exact_mod_cast le⟩, here⟩
    · rintro ⟨k, ⟨nonneg, le⟩, here⟩
      lift k to ℕ using nonneg
      exact ⟨k, by exact_mod_cast le, here⟩
  · -- there is but one point
    have still {k : ℤ} (between : 0 ≤ k ∧ k ≤ n) : d.ahead p k = p := by
      rcases Nat.eq_zero_or_pos n with rfl | positive
      · rw [le_antisymm between.2 between.1, Nat.cast_zero, ahead_zero]
      · have none : d.x = 0 ∧ d.y = 0 := by
          have : ¬ (d.x ≠ 0 ∨ d.y ≠ 0) := fun moves => going ⟨positive, moves⟩
          omega
        simp [ahead, none]
    have alone : (d.line p n).steps = 0 := by
      have stop : d.ahead p n = p := still ⟨Int.natCast_nonneg n, le_rfl⟩
      simp [Segment.steps, Segment.width, Segment.height, line, stop]
    rw [alone]
    constructor
    · rintro ⟨k, le, rfl⟩
      rw [Nat.le_zero.mp le]
      exact ⟨0, ⟨le_rfl, Int.natCast_nonneg n⟩, d.ahead_zero⟩
    · rintro ⟨k, between, rfl⟩
      exact ⟨0, le_rfl, (still between).symm⟩

end Walk

/-- A line with a negative number of steps goes as many steps of the opposite direction. -/
lemma exists_natCast (p : Point) (n : ℤ) :
    ∃ (e : Direction) (m : ℕ), e.line p m = d.line p n ∧
      ∀ q, (∃ k ∈ Set.uIcc 0 n, d.ahead p k = q) ↔
        ∃ k : ℤ, (0 ≤ k ∧ k ≤ m) ∧ e.ahead p k = q := by
  rcases le_total 0 n with nonneg | nonpos
  · lift n to ℕ using nonneg
    refine ⟨d, n, rfl, fun q => ?_⟩
    rw [Set.uIcc_of_le (Int.natCast_nonneg n)]
    rfl
  · obtain ⟨m, rfl⟩ : ∃ m : ℕ, n = -m := ⟨n.natAbs, by omega⟩
    refine ⟨d.opposite, m, by rw [line, line, ahead_opposite], fun q => ?_⟩
    rw [Set.uIcc_of_ge nonpos]
    constructor
    · rintro ⟨k, between, rfl⟩
      rw [Set.mem_Icc] at between
      exact ⟨-k, by omega, by rw [ahead_opposite, neg_neg]⟩
    · rintro ⟨k, between, rfl⟩
      exact ⟨-k, Set.mem_Icc.mpr (by omega), d.ahead_opposite.symm⟩

/-- A line in a direction is walked step by step. -/
lemma mem_walk_line : q ∈ (d.line p n).walk ↔ ∃ k ∈ Set.uIcc 0 n, d.ahead p k = q := by
  obtain ⟨e, m, same, points⟩ := d.exists_natCast p n
  rw [points, ← same, mem_walk_line_natCast]

/-- So is the part of a line between two of its points. -/
lemma mem_walk_between {i j : ℤ} (order : i ≤ j) :
    q ∈ (⟨d.ahead p i, d.ahead p j⟩ : Segment).walk ↔ ∃ k, (i ≤ k ∧ k ≤ j) ∧ d.ahead p k = q := by
  have same : (⟨d.ahead p i, d.ahead p j⟩ : Segment) = d.line (d.ahead p i) (j - i) := by
    rw [line, ahead_ahead, add_sub_cancel]
  rw [same, mem_walk_line, Set.uIcc_of_le (by omega)]
  constructor
  · rintro ⟨k, between, rfl⟩
    rw [Set.mem_Icc] at between
    exact ⟨i + k, by omega, d.ahead_ahead.symm⟩
  · rintro ⟨k, between, rfl⟩
    exact ⟨k - i, Set.mem_Icc.mpr (by omega), by rw [ahead_ahead, add_sub_cancel]⟩

section Clip

variable {first last : ℤ} {n : ℕ} {t : ℚ}

/-- A coordinate that changes by at most one is in a range at an integer if it is next to it. -/
lemma between_of_floor {x e k : ℤ} {u : ℚ} (unit : e = -1 ∨ e = 0 ∨ e = 1) (floor : ⌊u⌋ ≤ k)
    (ceil : k ≤ ⌈u⌉) (low : first ≤ x + u * e) (high : x + u * e ≤ last) :
    first ≤ x + k * e ∧ x + k * e ≤ last := by
  rcases unit with rfl | rfl | rfl
  · have below : ⌈u⌉ ≤ x - first := Int.ceil_le.mpr (by push_cast at *; linarith)
    have above : x - last ≤ ⌊u⌋ := Int.le_floor.mpr (by push_cast at *; linarith)
    omega
  · push_cast at low high
    rw [mul_zero, add_zero] at low high
    norm_cast at low high
    omega
  · have below : ⌈u⌉ ≤ last - x := Int.ceil_le.mpr (by push_cast at *; linarith)
    have above : first - x ≤ ⌊u⌋ := Int.le_floor.mpr (by push_cast at *; linarith)
    omega

/-- A coordinate that is in a range at two points is so in between. -/
lemma between_of_ends {x e i j k : ℤ} (unit : e = -1 ∨ e = 0 ∨ e = 1) (low : i ≤ k) (high : k ≤ j)
    (start : first ≤ x + i * e ∧ x + i * e ≤ last) (stop : first ≤ x + j * e ∧ x + j * e ≤ last) :
    first ≤ x + k * e ∧ x + k * e ≤ last := by
  rcases unit with rfl | rfl | rfl <;> omega

/-- The first coordinate of a line at a parameter. -/
lemma xAt_line : (d.line p n).xAt t = p.x + t * n * d.x := by
  simp only [Segment.xAt, line, ahead]
  push_cast
  ring

/-- The second coordinate of a line at a parameter. -/
lemma yAt_line : (d.line p n).yAt t = p.y + t * n * d.y := by
  simp only [Segment.yAt, line, ahead]
  push_cast
  ring

/-- Where a line is in the square, so are the points before and after. -/
lemma inSquare_of_inside (inside : (d.line p n).Inside first last t) {k : ℤ}
    (floor : ⌊t * n⌋ ≤ k) (ceil : k ≤ ⌈t * n⌉) : (d.ahead p k).InSquare first last := by
  rw [Segment.Inside, xAt_line, yAt_line] at inside
  obtain ⟨⟨left, right⟩, above, below⟩ := inside
  exact ⟨between_of_floor d.cases_x floor ceil left right,
    between_of_floor d.cases_y floor ceil above below⟩

/-- The parameter of a point. -/
lemma inside_iff {k : ℤ} (place : t * n = k) :
    (d.line p n).Inside first last t ↔ (d.ahead p k).InSquare first last := by
  rw [Segment.Inside, xAt_line, yAt_line, place]
  norm_cast

/-- At a parameter where a cell is, that is the cell. -/
lemma cellAt_line {k : ℤ} (place : t * n = k) (inside : (d.line p n).Inside first last t) :
    (d.line p n).cellAt ℚ first last t = d.ahead p k := by
  refine Segment.cellAt_of_eq ?_ ?_ inside
  · rw [xAt_line, place, ahead]
    push_cast
    rfl
  · rw [yAt_line, place, ahead]
    push_cast
    rfl

/-- A point of a line is at a parameter. -/
lemma exists_parameter {k : ℤ} (nonneg : 0 ≤ k) (le : k ≤ n) :
    ∃ t : ℚ, (0 ≤ t ∧ t ≤ 1) ∧ t * n = k := by
  have nonneg' : (0 : ℚ) ≤ k := by exact_mod_cast nonneg
  have le' : (k : ℚ) ≤ n := by exact_mod_cast le
  refine ⟨k / n, ⟨div_nonneg nonneg' (Nat.cast_nonneg n),
    div_le_one_of_le₀ le' (Nat.cast_nonneg n)⟩, div_mul_cancel_of_imp fun zero => ?_⟩
  rw [zero] at le'
  exact le_antisymm le' nonneg'

/-- The first parameter in the square is that of a point, as there is a point in the square before
any other. -/
lemma exists_first {a : ℚ} (bounds : 0 ≤ a ∧ a ≤ 1) (inside : (d.line p n).Inside first last a)
    (least : ∀ t, 0 ≤ t ∧ t ≤ 1 → (d.line p n).Inside first last t → a ≤ t) :
    ∃ i : ℤ, a * n = i ∧ 0 ≤ i ∧ i ≤ n := by
  have nonneg : (0 : ℚ) ≤ a * n := mul_nonneg bounds.1 (Nat.cast_nonneg n)
  have le : a * n ≤ n := mul_le_of_le_one_left (Nat.cast_nonneg n) bounds.2
  have floor : 0 ≤ ⌊a * n⌋ ∧ ⌊a * n⌋ ≤ n :=
    ⟨Int.floor_nonneg.mpr nonneg, by exact_mod_cast (Int.floor_le _).trans le⟩
  obtain ⟨t, bounds', place⟩ := exists_parameter floor.1 floor.2
  have earlier : (d.line p n).Inside first last t :=
    (d.inside_iff place).mpr (d.inSquare_of_inside inside le_rfl (Int.floor_le_ceil _))
  refine ⟨⌊a * n⌋, le_antisymm ?_ (Int.floor_le _), floor⟩
  rw [← place]
  exact mul_le_mul_of_nonneg_right (least t bounds' earlier) (Nat.cast_nonneg n)

/-- The last parameter in the square is that of a point, too. -/
lemma exists_last {b : ℚ} (bounds : 0 ≤ b ∧ b ≤ 1) (inside : (d.line p n).Inside first last b)
    (greatest : ∀ t, 0 ≤ t ∧ t ≤ 1 → (d.line p n).Inside first last t → t ≤ b) :
    ∃ j : ℤ, b * n = j ∧ 0 ≤ j ∧ j ≤ n := by
  have nonneg : (0 : ℚ) ≤ b * n := mul_nonneg bounds.1 (Nat.cast_nonneg n)
  have le : b * n ≤ n := mul_le_of_le_one_left (Nat.cast_nonneg n) bounds.2
  have ceil : 0 ≤ ⌈b * n⌉ ∧ ⌈b * n⌉ ≤ n :=
    ⟨Int.ceil_nonneg nonneg, Int.ceil_le.mpr (by exact_mod_cast le)⟩
  obtain ⟨t, bounds', place⟩ := exists_parameter ceil.1 ceil.2
  have later : (d.line p n).Inside first last t :=
    (d.inside_iff place).mpr (d.inSquare_of_inside inside (Int.floor_le_ceil _) le_rfl)
  refine ⟨⌈b * n⌉, le_antisymm (Int.le_ceil _) ?_, ceil⟩
  rw [← place]
  exact mul_le_mul_of_nonneg_right (greatest t bounds' later) (Nat.cast_nonneg n)

/-- Clipping leaves the points of a line that are in the square. -/
lemma clip?_line (d : Direction) (p : Point) (n : ℕ) (first last : ℤ) :
    ((d.line p n).clip? ℚ first last = none ∧
      ∀ k : ℤ, 0 ≤ k → k ≤ n → ¬ (d.ahead p k).InSquare first last) ∨
    ∃ i j : ℤ, i ≤ j ∧ (d.line p n).clip? ℚ first last = some ⟨d.ahead p i, d.ahead p j⟩ ∧
      ∀ k : ℤ, (0 ≤ k ∧ k ≤ n) ∧ (d.ahead p k).InSquare first last ↔ i ≤ k ∧ k ≤ j := by
  rcases (d.line p n).clip?_cases first last with ⟨none, never⟩ | ⟨a, b, le, mem, found⟩
  · refine .inl ⟨none, fun k nonneg le inSquare => ?_⟩
    obtain ⟨t, bounds, place⟩ := exists_parameter nonneg le
    exact never t bounds.1 bounds.2 ((d.inside_iff place).mpr inSquare)
  · obtain ⟨boundsA, insideA⟩ := (mem a).mpr ⟨le_rfl, le⟩
    obtain ⟨boundsB, insideB⟩ := (mem b).mpr ⟨le, le_rfl⟩
    obtain ⟨i, placeI, nonneg, -⟩ := d.exists_first boundsA insideA fun t bounds inside =>
      ((mem t).mp ⟨bounds, inside⟩).1
    obtain ⟨j, placeJ, -, upTo⟩ := d.exists_last boundsB insideB fun t bounds inside =>
      ((mem t).mp ⟨bounds, inside⟩).2
    -- whole numbers of steps are in the order of their parameters
    have order {s t : ℚ} {k l : ℤ} (le : s ≤ t) (hs : s * n = k) (ht : t * n = l) : k ≤ l := by
      have := mul_le_mul_of_nonneg_right le (Nat.cast_nonneg (α := ℚ) n)
      rw [hs, ht] at this
      exact_mod_cast this
    refine .inr ⟨i, j, order le placeI placeJ, ?_, fun k => ⟨?_, ?_⟩⟩
    · rw [found, d.cellAt_line placeI insideA, d.cellAt_line placeJ insideB]
    · rintro ⟨⟨low, high⟩, inSquare⟩
      obtain ⟨t, bounds, place⟩ := exists_parameter low high
      obtain ⟨later, earlier⟩ := (mem t).mp ⟨bounds, (d.inside_iff place).mpr inSquare⟩
      exact ⟨order later placeI place, order earlier place placeJ⟩
    · rintro ⟨low, high⟩
      refine ⟨⟨nonneg.trans low, high.trans upTo⟩, ?_⟩
      have start := (d.inside_iff placeI).mp insideA
      have stop := (d.inside_iff placeJ).mp insideB
      exact ⟨between_of_ends d.cases_x low high start.1 stop.1,
        between_of_ends d.cases_y low high start.2 stop.2⟩

end Clip

/-- The points at which a line in a direction is stamped: those that are within reach. -/
lemma mem_lineCentres_line {size radius : ℕ} :
    q ∈ Canvas.lineCentres ℚ size (d.line p n) radius ↔
      q ∈ (d.line p n).walk ∧ q.InSquare (reachFirst radius) (reachLast size radius) := by
  obtain ⟨e, m, same, -⟩ := d.exists_natCast p n
  rw [← same, Canvas.mem_lineCentres, mem_walk_line_natCast]
  constructor
  · rintro ⟨part, found, walked⟩
    rcases e.clip?_line p m (reachFirst radius) (reachLast size radius) with
      ⟨none, -⟩ | ⟨i, j, order, found', mem⟩
    · rw [none] at found
      cases found
    · rw [found'] at found
      cases found
      obtain ⟨k, between, rfl⟩ := (e.mem_walk_between order).mp walked
      obtain ⟨bounds, inSquare⟩ := (mem k).mpr between
      exact ⟨⟨k, bounds, rfl⟩, inSquare⟩
  · rintro ⟨⟨k, bounds, rfl⟩, inSquare⟩
    rcases e.clip?_line p m (reachFirst radius) (reachLast size radius) with
      ⟨-, never⟩ | ⟨i, j, order, found, mem⟩
    · exact absurd inSquare (never k bounds.1 bounds.2)
    · exact ⟨_, found, (e.mem_walk_between order).mpr ⟨k, (mem k).mp ⟨bounds, inSquare⟩, rfl⟩⟩

end Direction

namespace Canvas

variable (c : Canvas) (d : Direction) (p : Point) (n : ℤ) (color : Color) (brush : Int)

/-- A line in a direction is drawn just as by its whole walk, if clipping makes no errors. -/
lemma drawLineIn_line :
    c.drawLineIn ℚ (d.line p n) color brush = c.drawPlainLine (d.line p n) color brush := by
  refine c.stampAll_congr _ color fun q => ⟨?_, ?_⟩
  · rintro ⟨r, mem, touched⟩
    exact ⟨r, (d.mem_lineCentres_line.mp mem).1, touched⟩
  · rintro ⟨r, mem, touched⟩
    exact ⟨r, d.mem_lineCentres_line.mpr ⟨mem, reach_of_mem_disk touched⟩, touched⟩

/-- So it is in doubles, if its ends are of 32 bits. -/
lemma drawLine_line (start : |p.x| ≤ 2 ^ 31 ∧ |p.y| ≤ 2 ^ 31)
    (stop : |(d.ahead p n).x| ≤ 2 ^ 31 ∧ |(d.ahead p n).y| ≤ 2 ^ 31) (narrow : brush ≤ 2 ^ 31) :
    c.drawLine (d.line p n) color brush = c.drawPlainLine (d.line p n) color brush := by
  have radius := Checked.brushRadius_lt narrow
  refine stampAll_lineCentres_of_straight color d.straight_line
    ⟨start.1, start.2, stop.1, stop.2, ?_, ?_⟩
  · rw [reachFirst, abs_le]
    omega
  · rw [reachLast]
    omega

/-- The whole walk of a line in a direction is stamped. -/
lemma stamped_drawPlainLine :
    c.Stamped (fun r => ∃ k ∈ Set.uIcc 0 n, d.ahead p k = r) (brushRadius brush) color
      (c.drawPlainLine (d.line p n) color brush) :=
  (c.stamped_stampAll _ _ _).congr fun _ => d.mem_walk_line

end Canvas

namespace Value

/-- What counts as an integer fits a number. -/
lemma fits_of_asInt? {v : Value} {n : ℤ} (read : v.asInt? = some n) : Fits .number v := by
  cases v with
  | number x => exact .number
  | bool b => exact .bool
  | text s => cases read

end Value

namespace Instruction

/-- A number of 32 bits is a coordinate. -/
lemma toCoordinate_eq {n : ℤ} (bounds : |n| ≤ 2 ^ 31) : toCoordinate n = n := by
  rw [abs_le] at bounds
  unfold toCoordinate coordinateLimit
  omega

/-- A call that draws a line, with arguments that are read as integers within bounds. -/
lemma performIn_drawLine {K : Type} [Scalar K] (canvas : Canvas) (cursor : Cursor) {u v w : Value}
    {d : Direction} {n : ℤ} (readX : u.asInt? = some d.x) (readY : v.asInt? = some d.y)
    (readN : w.asInt? = some n) (far : |n| ≤ 2 ^ 31)
    (there : |(d.ahead cursor.position n).x| ≤ 2 ^ 31 ∧ |(d.ahead cursor.position n).y| ≤ 2 ^ 31) :
    (drawLine.performIn K [u, v, w]).run ⟨canvas, some cursor⟩ =
      (.ok none, ⟨canvas.drawLineIn K (d.line cursor.position n) cursor.color cursor.brush,
        some { cursor with position := d.ahead cursor.position n }⟩) := by
  have takes : drawLine.Takes [u, v, w] :=
    .cons (Value.fits_of_asInt? readX) (.cons (Value.fits_of_asInt? readY)
      (.cons (Value.fits_of_asInt? readN) .nil))
  have command : Command.ofCall drawLine [u, v, w] = .drawLine d.x d.y n := by
    have x : Command.intAt [u, v, w] 0 = toCoordinate d.x := by simp [Command.intAt, readX]
    have y : Command.intAt [u, v, w] 1 = toCoordinate d.y := by simp [Command.intAt, readY]
    have distance : Command.intAt [u, v, w] 2 = toCoordinate n := by simp [Command.intAt, readN]
    have unitX : |d.x| ≤ 2 ^ 31 := (abs_le.mpr d.x_bounds).trans (by norm_num)
    have unitY : |d.y| ≤ 2 ^ 31 := (abs_le.mpr d.y_bounds).trans (by norm_num)
    rw [Command.ofCall, x, y, distance, toCoordinate_eq unitX, toCoordinate_eq unitY,
      toCoordinate_eq far]
  have target : (⟨offset cursor.position.x d.x n, offset cursor.position.y d.y n⟩ : Point) =
      d.ahead cursor.position n := by
    rw [offset, offset, mul_comm d.x, mul_comm d.y]
    exact congrArg₂ Point.mk (toCoordinate_eq there.1) (toCoordinate_eq there.2)
  rw [performIn, validate_takes takes, command, Direction.line, ← target]
  rfl

/-- A line in one of the eight directions paints the disks around all its points and nothing else,
wherever it begins and ends, and the cursor is at its end then. The radius of the disks is what the
width of the brush has on each side of the centre. This is so if clipping makes no errors, and it is
so in doubles, too. -/
theorem drawLine_direction (canvas : Canvas) (cursor : Cursor) (d : Direction) (n : ℤ)
    {u v w : Value} (readX : u.asInt? = some d.x) (readY : v.asInt? = some d.y)
    (readN : w.asInt? = some n) (far : |n| ≤ 2 ^ 31) (narrow : cursor.brush ≤ 2 ^ 31)
    (here : |cursor.position.x| ≤ 2 ^ 31 ∧ |cursor.position.y| ≤ 2 ^ 31)
    (there : |cursor.position.x + n * d.x| ≤ 2 ^ 31 ∧ |cursor.position.y + n * d.y| ≤ 2 ^ 31)
    {width : ℤ} {radius : ℕ} (isWidth : IsWidth cursor.brush width)
    (half : (radius : ℤ) = (width - 1) / 2) :
    ∃ drawn,
      (drawLine.performIn ℚ [u, v, w]).run ⟨canvas, some cursor⟩ =
        (.ok none, ⟨drawn, some { cursor with position := d.ahead cursor.position n }⟩) ∧
      (drawLine.perform [u, v, w]).run ⟨canvas, some cursor⟩ =
        (.ok none, ⟨drawn, some { cursor with position := d.ahead cursor.position n }⟩) ∧
      canvas.Stamped (fun p => ∃ k ∈ Set.uIcc 0 n, d.ahead cursor.position k = p)
        radius cursor.color drawn := by
  have exact := performIn_drawLine (K := ℚ) canvas cursor readX readY readN far there
  have doubles := performIn_drawLine (K := Float) canvas cursor readX readY readN far there
  have same := canvas.drawLine_line d cursor.position n cursor.color cursor.brush here there narrow
  rw [Canvas.drawLineIn_line] at exact
  rw [← Canvas.drawLine, same] at doubles
  refine ⟨_, exact, doubles, ?_⟩
  rw [← isWidth.brushRadius_eq half]
  exact canvas.stamped_drawPlainLine d cursor.position n _ _

/-- A diagonal line from below the canvas to the right of it, against its direction. -/
theorem drawLine_direction_diagonal :
    let d : Direction := ⟨-1, 1, by decide, by decide⟩
    let cursor : Cursor := ⟨⟨-3, 7⟩, .red, 3⟩
    let arguments : List Value := [.number (-1.25), .bool true, .number (-9.5)]
    arguments.map Value.asInt? = [some d.x, some d.y, some (-10)] ∧
      ∃ drawn, (drawLine.perform arguments).run ⟨.blank 5 .white, some cursor⟩ =
          (.ok none, ⟨drawn, some ⟨⟨7, -3⟩, .red, 3⟩⟩) ∧
        drawn.get? ⟨2, 3⟩ = some .red ∧ drawn.get? ⟨3, 3⟩ = some .white := by
  intro d cursor arguments
  have read : arguments.map Value.asInt? = [some d.x, some d.y, some (-10)] := by decide +kernel
  simp only [arguments, List.map_cons, List.map_nil, List.cons.injEq, and_true] at read
  obtain ⟨drawn, -, done, stamped⟩ := drawLine_direction (.blank 5 .white) cursor d (-10) read.1
    read.2.1 read.2.2 (by decide) (by decide) (by decide) (by decide) (isWidth_brushWidth 3)
    (show ((1 : ℕ) : ℤ) = (3 - 1) / 2 by decide)
  refine ⟨by simp [arguments, read], drawn, done, ?_, ?_⟩
  · refine stamped.painted ⟨2, 3⟩ (by decide) ⟨⟨2, 2⟩, ⟨-5, ?_, rfl⟩, ?_⟩
    · exact Set.mem_uIcc.mpr (.inr ⟨by decide, by decide⟩)
    · unfold Point.InDisk
      decide
  · have free := stamped.unchanged ⟨3, 3⟩ ?_
    · rw [free]
      decide
    · rintro ⟨-, -, ⟨k, -, rfl⟩, near⟩
      have near : (3 - (-3 + k * -1)) ^ 2 + (3 - (7 + k * 1)) ^ 2 ≤ 1 := near
      nlinarith [sq_nonneg (k + 5)]

end Instruction

end Easel
