import Easel.Proofs.CheckedStrokes
import Easel.Proofs.Clipping
import Easel.Proofs.Stamping
import Easel.Proofs.Walk

/-!
# Lines without clipping

The plain way to draw a line stamps all points of its walk, wherever the canvas is
(`Canvas.drawPlainLine`). What clipping leaves is another segment: where it cuts, the end is the
cell nearest to the line, and the walk from there need not take the same cells. So the canvas may
differ (`Canvas.drawLine_ne_plain`), but not by much: the cells of both walks are beside each other
(`Canvas.drawLine_beside_plain`).

How far a point is from a line is measured by `Segment.offset`. It is at most half the length of
the longer axis on a walk and at the ends that clipping leaves, and thus at most the whole length on
the walk between them.
-/

namespace Easel

open Number

/-- A point is in the square of coordinates from `first` to `last`. -/
def Point.InSquare (p : Point) (first last : ℤ) : Prop :=
  (first ≤ p.x ∧ p.x ≤ last) ∧ first ≤ p.y ∧ p.y ≤ last

namespace Segment

variable {s part : Segment} {p q : Point} {a b c : ℚ} {first last : ℤ}

/-- The coordinate of a point along the longer axis of a segment. -/
def along (s : Segment) (p : Point) : ℤ := if s.height ≤ s.width then p.x else p.y

/-- The coordinate of a point along the shorter axis of a segment. -/
def aside (s : Segment) (p : Point) : ℤ := if s.height ≤ s.width then p.y else p.x

/-- The coordinate of a segment along its longer axis at a parameter. -/
def alongAt (s : Segment) (c : ℚ) : ℚ := if s.height ≤ s.width then s.xAt c else s.yAt c

/-- The coordinate of a segment along its shorter axis at a parameter. -/
def asideAt (s : Segment) (c : ℚ) : ℚ := if s.height ≤ s.width then s.yAt c else s.xAt c

/-- Two points are the same or next to each other along the shorter axis of a segment. -/
def Beside (s : Segment) (p q : Point) : Prop :=
  s.along p = s.along q ∧ |s.aside p - s.aside q| ≤ 1

/-- The distance of a point from the line along the shorter axis, times the length of the longer
one. -/
def offset (s : Segment) (p : Point) : ℤ :=
  (s.stop.y - s.start.y) * (p.x - s.start.x) - (s.stop.x - s.start.x) * (p.y - s.start.y)

/-- A walk takes as many steps as its segment is long on the longer axis. -/
lemma steps_eq (s : Segment) :
    (s.steps : ℤ) = max |s.stop.x - s.start.x| |s.stop.y - s.start.y| := by
  rw [steps, ← width_eq_abs, ← height_eq_abs]
  have := s.width_nonneg
  omega

/-- A segment is not wider than its walk is long. -/
lemma width_le_steps (s : Segment) : |s.stop.x - s.start.x| ≤ s.steps :=
  s.steps_eq ▸ le_max_left _ _

/-- A segment is not higher than its walk is long. -/
lemma height_le_steps (s : Segment) : |s.stop.y - s.start.y| ≤ s.steps :=
  s.steps_eq ▸ le_max_right _ _

/-- The longer axis of a segment is the first or the second. -/
lemma axes (s : Segment) :
    (s.steps = |s.stop.x - s.start.x| ∧ (∀ p, s.along p = p.x ∧ s.aside p = p.y) ∧
      ∀ c, s.alongAt c = s.xAt c ∧ s.asideAt c = s.yAt c) ∨
    (s.steps = |s.stop.y - s.start.y| ∧ (∀ p, s.along p = p.y ∧ s.aside p = p.x) ∧
      ∀ c, s.alongAt c = s.yAt c ∧ s.asideAt c = s.xAt c) := by
  rw [steps_eq, ← width_eq_abs, ← height_eq_abs]
  by_cases wider : s.height ≤ s.width
  · left
    simp [along, aside, alongAt, asideAt, wider]
  · right
    simp only [along, aside, alongAt, asideAt, wider, if_false, max_eq_right (not_le.mp wider).le]
    simp

/-- A point is told by its coordinates along the segment and across it. -/
lemma eq_of_along_aside (same : s.along p = s.along q) (same' : s.aside p = s.aside q) :
    p = q := by
  obtain ⟨x, y⟩ := p
  obtain ⟨x', y'⟩ := q
  rcases s.axes with ⟨-, axes, -⟩ | ⟨-, axes, -⟩ <;> simp only [axes] at same same' <;>
    rw [same, same']

/-- A walk is off its segment by at most half a cell. -/
lemma two_mul_offset_le (mem : p ∈ s.walk) : 2 * |s.offset p| ≤ s.steps := by
  obtain ⟨k, le, rfl⟩ := mem_walk.mp mem
  obtain ⟨i, j, on⟩ := s.onWalk_stepAfter le
  rw [steps_eq, ← width_eq_abs, ← height_eq_abs]
  exact on.near_line

/-- A walk without steps stays where it begins. -/
lemma eq_start_of_steps (zero : s.steps = 0) (mem : p ∈ s.walk) : p = s.start := by
  obtain ⟨k, le, rfl⟩ := mem_walk.mp mem
  obtain rfl : k = 0 := by omega
  rfl

/-- A walk leaves out no value of a coordinate between those at its ends, if the coordinate changes
by at most one with each step. -/
lemma exists_mem_walk {coord : Point → ℤ}
    (slow : ∀ p q, s.StepsTo p q → |coord p - coord q| ≤ 1) {v : ℤ}
    (between : v ∈ Set.uIcc (coord s.start) (coord s.stop)) : ∃ p ∈ s.walk, coord p = v := by
  -- the coordinate does not get past the value without taking it
  have reached : ∀ k ≤ s.steps, v ∈ Set.uIcc (coord s.start) (coord (s.stepAfter k).point) →
      ∃ p ∈ s.walk, coord p = v := by
    intro k
    induction k with
    | zero =>
      intro le between
      have same : v ∈ Set.uIcc (coord s.start) (coord s.start) := between
      rw [Set.uIcc_self, Set.mem_singleton_iff] at same
      exact ⟨s.start, mem_walk.mpr ⟨0, le, rfl⟩, same.symm⟩
    | succ k ih =>
      intro le between
      by_cases here : coord (s.stepAfter (k + 1)).point = v
      · exact ⟨_, mem_walk.mpr ⟨k + 1, le, rfl⟩, here⟩
      · have step := abs_le.mp (slow _ _ (s.stepsTo_stepAfter (k := k) (by omega)))
        refine ih (by omega) ?_
        rw [Set.mem_uIcc] at between ⊢
        omega
  refine reached s.steps le_rfl ?_
  rwa [(stepAfter_stop le_rfl).mpr rfl]

/-- A step of any walk changes either coordinate by at most one. -/
lemma abs_along_le (s : Segment) (step : part.StepsTo p q) : |s.along p - s.along q| ≤ 1 := by
  have both : |p.x - q.x| ≤ 1 ∧ |p.y - q.y| ≤ 1 := by
    rw [abs_le, abs_le]
    rcases le_total part.height part.width with wider | higher
    · obtain ⟨x, y⟩ := step.1 wider
      simp only [Nearer] at x y
      omega
    · obtain ⟨y, x⟩ := step.2 higher
      simp only [Nearer] at x y
      omega
  rcases s.axes with ⟨-, axes, -⟩ | ⟨-, axes, -⟩ <;> simp only [axes]
  exacts [both.1, both.2]

/-- A mean of two numbers and a small addend. -/
lemma abs_le_of_mix {d u l m n e h k : ℚ} (nonzero : d ≠ 0) (split : |d - u| + |u| = |d|)
    (mix : d * n = (d - u) * l + u * m + e) (hl : |l| ≤ k) (hm : |m| ≤ k) (he : |e| ≤ |d| * h) :
    |n| ≤ k + h := by
  have positive : 0 < |d| := abs_pos.mpr nonzero
  refine le_of_mul_le_mul_left ?_ positive
  calc |d| * |n| = |(d - u) * l + u * m + e| := by rw [← abs_mul, mix]
    _ ≤ |(d - u) * l| + |u * m| + |e| := abs_add_three _ _ _
    _ ≤ |d - u| * k + |u| * k + |d| * h := by
      rw [abs_mul, abs_mul]
      gcongr
    _ = |d| * (k + h) := by rw [← add_mul, split, mul_add]

/-- A number between two others divides the way between them. -/
lemma abs_sub_add_abs_of_mem_uIcc {x y v : ℤ} (between : v ∈ Set.uIcc x y) :
    |((y - x : ℤ) : ℚ) - (v - x : ℤ)| + |((v - x : ℤ) : ℚ)| = |((y - x : ℤ) : ℚ)| := by
  norm_cast
  rw [Set.mem_uIcc] at between
  rcases between with ⟨low, high⟩ | ⟨low, high⟩
  · rw [abs_of_nonneg (by omega), abs_of_nonneg (by omega), abs_of_nonneg (by omega)]
    omega
  · rw [abs_of_nonpos (by omega), abs_of_nonpos (by omega), abs_of_nonpos (by omega)]
    omega

/-- The walk along a part is off the part by at most half a cell, measured by the whole segment. -/
lemma abs_mul_offset_le (mem : p ∈ part.walk) {d : ℤ} (le : |d| ≤ s.steps) :
    |(d * part.offset p : ℚ)| ≤ part.steps * (s.steps / 2) := by
  have le' : |(d : ℚ)| ≤ s.steps := by exact_mod_cast le
  have near : 2 * |(part.offset p : ℚ)| ≤ part.steps := by exact_mod_cast two_mul_offset_le mem
  rw [abs_mul]
  calc |(d : ℚ)| * |(part.offset p : ℚ)| ≤ s.steps * (part.steps / 2) := by
        gcongr
        linarith
    _ = part.steps * (s.steps / 2) := by ring

/-- A walk is at most half a cell farther from any line than its ends are. -/
lemma abs_offset_le_of_mem_walk {k : ℚ} (start : |(s.offset part.start : ℚ)| ≤ k)
    (stop : |(s.offset part.stop : ℚ)| ≤ k) (mem : p ∈ part.walk) :
    |(s.offset p : ℚ)| ≤ k + s.steps / 2 := by
  obtain ⟨x, y⟩ := mem_uIcc_of_mem_walk mem
  rcases Nat.eq_zero_or_pos part.steps with zero | positive
  · rw [eq_start_of_steps zero mem]
    exact start.trans (le_add_of_nonneg_right (by positivity))
  · have long : (0 : ℤ) < part.steps := by exact_mod_cast positive
    -- along the longer axis of the part, the offset is a mean of those at its ends, but for the
    -- distance of the walk from the part
    rcases part.axes with ⟨steps, -⟩ | ⟨steps, -⟩
    · have length : |((part.stop.x - part.start.x : ℤ) : ℚ)| = part.steps := by
        exact_mod_cast steps.symm
      refine abs_le_of_mix (d := (part.stop.x - part.start.x : ℤ))
        (e := (s.stop.x - s.start.x : ℤ) * part.offset p) ?_ (abs_sub_add_abs_of_mem_uIcc x) ?_
        start stop ?_
      · exact_mod_cast abs_pos.mp (steps ▸ long)
      · simp only [offset]
        push_cast
        ring
      · rw [length]
        exact abs_mul_offset_le mem s.width_le_steps
    · have length : |((part.stop.y - part.start.y : ℤ) : ℚ)| = part.steps := by
        exact_mod_cast steps.symm
      refine abs_le_of_mix (d := (part.stop.y - part.start.y : ℤ))
        (e := (s.stop.y - s.start.y : ℤ) * part.offset p) ?_ (abs_sub_add_abs_of_mem_uIcc y) ?_
        start stop ?_
      · exact_mod_cast abs_pos.mp (steps ▸ long)
      · simp only [offset]
        push_cast
        ring
      · rw [length]
        exact abs_mul_offset_le mem s.height_le_steps

/-- The cells at which clipping cuts are near to the line. -/
lemma CellOf.abs_offset_le (cell : s.CellOf p c) :
    |(s.offset p : ℚ)| ≤ s.steps * (1 / 2 + 2 * Edge.slack) := by
  have x : |((s.stop.x - s.start.x : ℤ) : ℚ)| ≤ s.steps := by exact_mod_cast s.width_le_steps
  have y : |((s.stop.y - s.start.y : ℤ) : ℚ)| ≤ s.steps := by exact_mod_cast s.height_le_steps
  have both : |p.x - s.xAt c| + |p.y - s.yAt c| ≤ 1 / 2 + 2 * Edge.slack := by
    rcases cell.exact with exact | exact
    · linarith [cell.y]
    · linarith [cell.x]
  have onLine : (s.offset p : ℚ) = (s.stop.y - s.start.y : ℤ) * (p.x - s.xAt c) -
      (s.stop.x - s.start.x : ℤ) * (p.y - s.yAt c) := by
    simp only [offset, xAt, yAt]
    push_cast
    ring
  calc |(s.offset p : ℚ)|
      ≤ |((s.stop.y - s.start.y : ℤ) : ℚ)| * |p.x - s.xAt c| +
        |((s.stop.x - s.start.x : ℤ) : ℚ)| * |p.y - s.yAt c| := by
        rw [onLine, ← abs_mul, ← abs_mul]
        exact abs_sub _ _
    _ ≤ s.steps * |p.x - s.xAt c| + s.steps * |p.y - s.yAt c| := by gcongr
    _ = s.steps * (|p.x - s.xAt c| + |p.y - s.yAt c|) := by ring
    _ ≤ s.steps * (1 / 2 + 2 * Edge.slack) := by gcongr

/-- An integer nearest to a number between two others is between them. -/
lemma mem_uIcc_of_near {m x y : ℤ} (nonneg : 0 ≤ c) (le : c ≤ 1)
    (near : |m - (x + c * (y - x : ℤ))| ≤ 1 / 2 + Edge.slack) : m ∈ Set.uIcc x y := by
  have small : Edge.slack < 1 / 4 := by norm_num [Edge.slack]
  obtain ⟨low, high⟩ := abs_le.mp near
  push_cast at low high
  rw [Set.mem_uIcc]
  rcases le_total x y with upward | downward
  · have upward' : (x : ℚ) ≤ y := by exact_mod_cast upward
    exact .inl ⟨le_of_cast_lt (by nlinarith), le_of_cast_lt (by nlinarith)⟩
  · have downward' : (y : ℚ) ≤ x := by exact_mod_cast downward
    exact .inr ⟨le_of_cast_lt (by nlinarith), le_of_cast_lt (by nlinarith)⟩

/-- What clipping leaves stays between the ends of the segment. -/
lemma Clipped.mem_uIcc (clipped : s.Clipped first last part a b) (mem : p ∈ part.walk) :
    p.x ∈ Set.uIcc s.start.x s.stop.x ∧ p.y ∈ Set.uIcc s.start.y s.stop.y := by
  obtain ⟨⟨nonneg, le⟩, -⟩ := (clipped.mem a).mp ⟨le_rfl, clipped.le⟩
  obtain ⟨⟨nonneg', le'⟩, -⟩ := (clipped.mem b).mp ⟨clipped.le, le_rfl⟩
  obtain ⟨x, y⟩ := mem_uIcc_of_mem_walk mem
  exact ⟨Set.uIcc_subset_uIcc (mem_uIcc_of_near nonneg le clipped.start.x)
      (mem_uIcc_of_near nonneg' le' clipped.stop.x) x,
    Set.uIcc_subset_uIcc (mem_uIcc_of_near nonneg le clipped.start.y)
      (mem_uIcc_of_near nonneg' le' clipped.stop.y) y⟩

/-- Of points at one place along a line, the offsets tell how far they are apart. -/
lemma steps_mul_abs_aside (same : s.along p = s.along q) :
    s.steps * |s.aside p - s.aside q| = |s.offset p - s.offset q| := by
  rcases s.axes with ⟨steps, axes, -⟩ | ⟨steps, axes, -⟩ <;>
    simp only [axes, steps, offset] at same ⊢ <;> rw [← abs_mul, same]
  · rw [← abs_neg]
    congr 1
    ring
  · congr 1
    ring

/-- There is a point of a plain walk at every place along the part that clipping leaves. -/
lemma Clipped.exists_mem_walk (clipped : s.Clipped first last part a b) (mem : p ∈ part.walk) :
    ∃ q ∈ s.walk, s.along p = s.along q := by
  obtain ⟨x, y⟩ := clipped.mem_uIcc mem
  have between : s.along p ∈ Set.uIcc (s.along s.start) (s.along s.stop) := by
    rcases s.axes with ⟨-, axes, -⟩ | ⟨-, axes, -⟩ <;> simp only [axes]
    exacts [x, y]
  obtain ⟨q, mem', same⟩ := Segment.exists_mem_walk (fun _ _ => abs_along_le s) between
  exact ⟨q, mem', same.symm⟩

/-- A part of a segment without steps stays where the segment begins. -/
lemma Clipped.eq_start (clipped : s.Clipped first last part a b) (zero : s.steps = 0)
    (mem : p ∈ part.walk) : p = s.start := by
  obtain ⟨x, y⟩ := clipped.mem_uIcc mem
  have width := s.width_le_steps
  have height := s.height_le_steps
  rw [zero, abs_le] at width height
  rw [Set.mem_uIcc] at x y
  obtain ⟨px, py⟩ := p
  obtain ⟨⟨sx, sy⟩, stop⟩ := s
  simp only at *
  rw [show px = sx by omega, show py = sy by omega]

/-- The walk along a clipped part is off the whole segment by little more than one cell. -/
lemma Clipped.abs_offset_le (clipped : s.Clipped first last part a b) (mem : p ∈ part.walk) :
    |(s.offset p : ℚ)| ≤ s.steps * (1 / 2 + 2 * Edge.slack) + s.steps / 2 :=
  abs_offset_le_of_mem_walk clipped.start.abs_offset_le clipped.stop.abs_offset_le mem

/-- Where both walks are at one place along the line, they are beside each other. -/
lemma Clipped.beside (clipped : s.Clipped first last part a b) (mem : p ∈ part.walk)
    (mem' : q ∈ s.walk) (same : s.along p = s.along q) : s.Beside p q := by
  refine ⟨same, ?_⟩
  rcases Nat.eq_zero_or_pos s.steps with zero | positive
  · rw [clipped.eq_start zero mem, eq_start_of_steps zero mem', sub_self, abs_zero]
    exact zero_le_one
  · have long : (0 : ℚ) < s.steps := by exact_mod_cast positive
    have near := clipped.abs_offset_le mem
    have near' : 2 * |(s.offset q : ℚ)| ≤ s.steps := by exact_mod_cast two_mul_offset_le mem'
    have apart : s.steps * ((|s.aside p - s.aside q| : ℤ) : ℚ) =
        |(s.offset p : ℚ) - s.offset q| := by
      exact_mod_cast steps_mul_abs_aside same
    have small : Edge.slack < 1 / 8 := by norm_num [Edge.slack]
    -- half a cell for either walk and half a cell for the ends of the part make less than two
    refine le_of_cast_lt (lt_of_mul_lt_mul_left ?_ long.le)
    calc s.steps * ((|s.aside p - s.aside q| : ℤ) : ℚ) = |(s.offset p : ℚ) - s.offset q| := apart
      _ ≤ |(s.offset p : ℚ)| + |(s.offset q : ℚ)| := abs_sub _ _
      _ ≤ s.steps * (1 / 2 + 2 * Edge.slack) + s.steps / 2 + s.steps / 2 := by linarith
      _ < s.steps * ((1 : ℤ) + 1) := by
        push_cast
        nlinarith

/-- A segment is straight if it goes along one axis or equally far along both. -/
def Straight (s : Segment) : Prop := s.width = 0 ∨ s.height = 0 ∨ s.width = s.height

/-- No point is less than one cell away from a straight line, but not on it. -/
lemma Straight.offset_eq_zero (straight : s.Straight) (near : |s.offset p| < s.steps) :
    s.offset p = 0 := by
  refine Int.eq_zero_of_abs_lt_dvd ?_ near
  have divides : (s.steps : ℤ) ∣ s.stop.x - s.start.x ∧ (s.steps : ℤ) ∣ s.stop.y - s.start.y := by
    rw [steps_eq]
    rw [Straight, width_eq_abs, height_eq_abs] at straight
    rcases straight with zero | zero | equal
    · rw [zero, max_eq_right (abs_nonneg _), abs_eq_zero.mp zero]
      exact ⟨dvd_zero _, (abs_dvd _ _).mpr dvd_rfl⟩
    · rw [zero, max_eq_left (abs_nonneg _), abs_eq_zero.mp zero]
      exact ⟨(abs_dvd _ _).mpr dvd_rfl, dvd_zero _⟩
    · rw [← equal, max_self]
      exact ⟨(abs_dvd _ _).mpr dvd_rfl, equal ▸ (abs_dvd _ _).mpr dvd_rfl⟩
  exact dvd_sub (divides.2.mul_right _) (divides.1.mul_right _)

/-- The walk along a straight segment is not off it. -/
lemma Straight.offset_of_mem_walk (straight : s.Straight) (positive : 0 < s.steps)
    (mem : p ∈ s.walk) : s.offset p = 0 := by
  have near := two_mul_offset_le mem
  exact straight.offset_eq_zero (by omega)

/-- Where both walks along a straight line are at one place along it, they are at the same point. -/
lemma Clipped.eq_of_straight (clipped : s.Clipped first last part a b) (straight : s.Straight)
    (mem : p ∈ part.walk) (mem' : q ∈ s.walk) (same : s.along p = s.along q) : p = q := by
  rcases Nat.eq_zero_or_pos s.steps with zero | positive
  · rw [clipped.eq_start zero mem, eq_start_of_steps zero mem']
  · have long : (0 : ℚ) < s.steps := by exact_mod_cast positive
    have small : Edge.slack < 1 / 8 := by norm_num [Edge.slack]
    -- the ends of the part are on the line, so that its walk is less than one cell away
    have cut {p' : Point} {c : ℚ} (cell : s.CellOf p' c) : |(s.offset p' : ℚ)| ≤ 0 := by
      have near : |(s.offset p' : ℚ)| < s.steps := cell.abs_offset_le.trans_lt (by nlinarith)
      rw [straight.offset_eq_zero (by exact_mod_cast near)]
      simp
    have near : |(s.offset p : ℚ)| < s.steps :=
      (abs_offset_le_of_mem_walk (cut clipped.start) (cut clipped.stop) mem).trans_lt (by linarith)
    have apart := steps_mul_abs_aside same
    rw [straight.offset_eq_zero (by exact_mod_cast near),
      straight.offset_of_mem_walk positive mem', sub_self, abs_zero] at apart
    refine eq_of_along_aside same ?_
    have := (mul_eq_zero.mp apart).resolve_left (by omega)
    exact sub_eq_zero.mp (abs_eq_zero.mp this)

/-- An integer between two others is at a parameter between zero and one. -/
lemma exists_parameter {v x y : ℤ} (between : v ∈ Set.uIcc x y) :
    ∃ c : ℚ, (0 ≤ c ∧ c ≤ 1) ∧ x + c * (y - x : ℤ) = v := by
  rcases eq_or_ne y x with rfl | apart
  · rw [Set.uIcc_self, Set.mem_singleton_iff] at between
    exact ⟨0, by norm_num, by simp [between]⟩
  · have nonzero : ((y - x : ℤ) : ℚ) ≠ 0 := by exact_mod_cast sub_ne_zero.mpr apart
    refine ⟨(v - x : ℤ) / (y - x : ℤ), ?_, ?_⟩
    · rw [Set.mem_uIcc] at between
      rcases between with ⟨low, high⟩ | ⟨low, high⟩
      · have low' : (0 : ℚ) ≤ (v - x : ℤ) := by exact_mod_cast sub_nonneg.mpr low
        have high' : ((v - x : ℤ) : ℚ) ≤ (y - x : ℤ) := by exact_mod_cast sub_le_sub_right high x
        exact ⟨div_nonneg low' (low'.trans high'), div_le_one_of_le₀ high' (low'.trans high')⟩
      · have high' : ((v - x : ℤ) : ℚ) ≤ 0 := by exact_mod_cast sub_nonpos.mpr high
        have low' : ((y - x : ℤ) : ℚ) ≤ (v - x : ℤ) := by exact_mod_cast sub_le_sub_right low x
        exact ⟨div_nonneg_of_nonpos high' (low'.trans high'),
          div_le_one_of_ge low' (low'.trans high')⟩
    · rw [div_mul_cancel₀ _ nonzero]
      push_cast
      ring

/-- A point of a walk is at a parameter of the line, and as far from it as the offset tells. -/
lemma exists_alongAt (mem : q ∈ s.walk) :
    ∃ c : ℚ, (0 ≤ c ∧ c ≤ 1) ∧ s.alongAt c = s.along q ∧
      s.steps * |s.aside q - s.asideAt c| = |(s.offset q : ℚ)| := by
  obtain ⟨x, y⟩ := mem_uIcc_of_mem_walk mem
  -- the parameter is that of the coordinate along the longer axis
  rcases s.axes with ⟨steps, axes, axes'⟩ | ⟨steps, axes, axes'⟩
  · obtain ⟨c, bounds, place⟩ := exists_parameter x
    refine ⟨c, bounds, ?_, ?_⟩
    · rw [(axes q).1, (axes' c).1, xAt, place]
    · have length : (s.steps : ℚ) = |((s.stop.x - s.start.x : ℤ) : ℚ)| := by exact_mod_cast steps
      rw [(axes q).2, (axes' c).2, length, ← abs_mul, ← abs_neg, offset, yAt]
      push_cast at place ⊢
      rw [← place]
      congr 1
      ring
  · obtain ⟨c, bounds, place⟩ := exists_parameter y
    refine ⟨c, bounds, ?_, ?_⟩
    · rw [(axes q).1, (axes' c).1, yAt, place]
    · have length : (s.steps : ℚ) = |((s.stop.y - s.start.y : ℤ) : ℚ)| := by exact_mod_cast steps
      rw [(axes q).2, (axes' c).2, length, ← abs_mul, offset, xAt]
      push_cast at place ⊢
      rw [← place]
      congr 1
      ring

/-- A point of a walk is within half a cell of the line, and on it if the line is straight. -/
lemma exists_asideAt (mem : q ∈ s.walk) :
    ∃ c : ℚ, (0 ≤ c ∧ c ≤ 1) ∧ s.alongAt c = s.along q ∧ |s.aside q - s.asideAt c| ≤ 1 / 2 ∧
      (s.Straight → s.asideAt c = s.aside q) := by
  obtain ⟨c, bounds, place, apart⟩ := exists_alongAt mem
  refine ⟨c, bounds, place, ?_⟩
  -- a segment without steps has but one point, and else one can divide by its length
  rcases Nat.eq_zero_or_pos s.steps with zero | positive
  · have same : s.asideAt c = s.aside q := by
      have width := s.width_le_steps
      have height := s.height_le_steps
      rw [zero, Nat.cast_zero, abs_nonpos_iff] at width height
      rw [eq_start_of_steps zero mem]
      rcases s.axes with ⟨-, axes, axes'⟩ | ⟨-, axes, axes'⟩ <;>
        simp [axes, axes', xAt, yAt, width, height]
    rw [same, sub_self, abs_zero]
    exact ⟨by norm_num, fun _ => rfl⟩
  · have long : (0 : ℚ) < s.steps := by exact_mod_cast positive
    have near : 2 * |(s.offset q : ℚ)| ≤ s.steps := by exact_mod_cast two_mul_offset_le mem
    constructor
    · refine le_of_mul_le_mul_left ?_ long
      linarith
    · intro straight
      rw [straight.offset_of_mem_walk positive mem, Int.cast_zero, abs_zero] at apart
      have same := (mul_eq_zero.mp apart).resolve_left long.ne'
      exact (sub_eq_zero.mp (abs_eq_zero.mp same)).symm

/-- What is between two parameters is between the cells there. -/
lemma mem_uIcc_of_rounded {m n v x y : ℤ} (nonneg : 0 ≤ c) (le : c ≤ 1)
    (place : x + c * (y - x : ℤ) = v) (length : |y - x| ≤ 2 ^ 32)
    (start : |m - (x + a * (y - x : ℤ))| ≤ 1 / 2 + Edge.slack)
    (stop : |n - (x + b * (y - x : ℤ))| ≤ 1 / 2 + Edge.slack) (low : a ≤ rounded c)
    (high : rounded c ≤ b) : v ∈ Set.uIcc m n := by
  have small : Edge.slack < 1 / 8 := by norm_num [Edge.slack]
  have length' : |((y - x : ℤ) : ℚ)| ≤ 2 ^ 32 := by exact_mod_cast length
  -- the point is moved by less than the slack when its parameter is rounded
  have off : |(rounded c - c) * (y - x : ℤ)| ≤ Edge.slack := by
    have error : |rounded c - c| ≤ 2 ^ (-53 : ℤ) :=
      Edge.rounded_near_unit (rounded_nonneg nonneg) (Edge.rounded_le_one le)
    rw [abs_mul]
    calc |rounded c - c| * |((y - x : ℤ) : ℚ)| ≤ 2 ^ (-53 : ℤ) * 2 ^ 32 := by gcongr
      _ ≤ Edge.slack := by norm_num [Edge.slack]
  rw [abs_le] at start stop off
  rw [Set.mem_uIcc]
  rcases le_total (0 : ℚ) (y - x : ℤ) with upward | downward
  · have first := mul_le_mul_of_nonneg_right low upward
    have last := mul_le_mul_of_nonneg_right high upward
    exact .inl ⟨le_of_cast_lt (by linarith), le_of_cast_lt (by linarith)⟩
  · have first := mul_le_mul_of_nonpos_right low downward
    have last := mul_le_mul_of_nonpos_right high downward
    exact .inr ⟨le_of_cast_lt (by linarith), le_of_cast_lt (by linarith)⟩

/-- What clipping leaves passes every point of the line in the square. -/
lemma Clipped.exists_along (moderate : s.Moderate first last)
    (clipped : s.Clipped first last part a b) (nonneg : 0 ≤ c) (le : c ≤ 1)
    (inside : s.Inside first last c) {v : ℤ} (place : s.alongAt c = v) :
    ∃ p ∈ part.walk, s.along p = v := by
  obtain ⟨low, high⟩ := clipped.rounded_mem nonneg le inside
  refine Segment.exists_mem_walk (fun _ _ => abs_along_le s) ?_
  rcases s.axes with ⟨-, axes, axes'⟩ | ⟨-, axes, axes'⟩ <;> simp only [axes, axes'] at place ⊢
  · exact mem_uIcc_of_rounded nonneg le place
      (abs_sub_le_of_abs_le moderate.stopX moderate.startX) clipped.start.x clipped.stop.x low high
  · exact mem_uIcc_of_rounded nonneg le place
      (abs_sub_le_of_abs_le moderate.stopY moderate.startY) clipped.start.y clipped.stop.y low high

/-- Both ends of a segment are beyond the same side of the square. -/
def Misses (s : Segment) (first last : ℤ) : Prop :=
  (s.start.x < first ∧ s.stop.x < first ∨ last < s.start.x ∧ last < s.stop.x) ∨
    s.start.y < first ∧ s.stop.y < first ∨ last < s.start.y ∧ last < s.stop.y

/-- A point is in the square, and not on the border along the shorter axis of a segment. -/
def Inner (s : Segment) (first last : ℤ) (p : Point) : Prop :=
  (first ≤ s.along p ∧ s.along p ≤ last) ∧ first < s.aside p ∧ s.aside p < last

/-- Nothing is left of a segment that misses the square. -/
lemma Misses.clip? (misses : s.Misses first last) (moderate : s.Moderate first last) :
    s.clip? Float first last = none := by
  have outside := fun e mem => clip?_of_outside (e := e) moderate mem
  rw [forall_mem_edges] at outside
  obtain ⟨left, right, above, below⟩ := outside
  rcases misses with (⟨start, stop⟩ | ⟨start, stop⟩) | ⟨start, stop⟩ | ⟨start, stop⟩
  · exact left (by simp only; omega) (by simp only; omega)
  · exact right (by simp only; omega) (by simp only; omega)
  · exact above (by simp only; omega) (by simp only; omega)
  · exact below (by simp only; omega) (by simp only; omega)

/-- A walk beyond one side of the square does not get there. -/
lemma Misses.outside (misses : s.Misses first last) (mem : p ∈ s.walk) :
    ¬ p.InSquare first last := by
  obtain ⟨x, y⟩ := mem_uIcc_of_mem_walk mem
  rw [Set.mem_uIcc] at x y
  rw [Misses] at misses
  rw [Point.InSquare]
  omega

/-- The first point of a segment is its first end. -/
lemma inside_zero : s.Inside first last 0 ↔ s.start.InSquare first last := by
  simp [Inside, Point.InSquare, xAt, yAt]

/-- The last point of a segment is its last end. -/
lemma inside_one : s.Inside first last 1 ↔ s.stop.InSquare first last := by
  simp [Inside, Point.InSquare, xAt, yAt]

/-- A walk begins at the first end. -/
lemma start_mem_walk (s : Segment) : s.start ∈ s.walk := mem_walk.mpr ⟨0, Nat.zero_le _, rfl⟩

/-- A walk comes to the last end. -/
lemma stop_mem_walk (s : Segment) : s.stop ∈ s.walk :=
  mem_walk.mpr ⟨s.steps, le_rfl, (stepAfter_stop le_rfl).mpr rfl⟩

/-- Clipping keeps the ends that are in the square. -/
lemma exists_clip?_of_end (moderate : s.Moderate first last) (mem : p ∈ [s.start, s.stop])
    (within : p.InSquare first last) :
    ∃ part, s.clip? Float first last = some part ∧ p ∈ part.walk := by
  obtain rfl | rfl : p = s.start ∨ p = s.stop := by simpa using mem
  · rw [← inside_zero] at within
    obtain ⟨part, a, b, found, clipped⟩ := exists_clipped moderate le_rfl zero_le_one within
    exact ⟨part, found, clipped.start_of_inside within ▸ part.start_mem_walk⟩
  · rw [← inside_one] at within
    obtain ⟨part, a, b, found, clipped⟩ := exists_clipped moderate zero_le_one le_rfl within
    exact ⟨part, found, clipped.stop_of_inside within ▸ part.stop_mem_walk⟩

/-- A point of a line is in the square if both its coordinates are. -/
lemma inside_iff : s.Inside first last c ↔
    (first ≤ s.alongAt c ∧ s.alongAt c ≤ last) ∧ first ≤ s.asideAt c ∧ s.asideAt c ≤ last := by
  rcases s.axes with ⟨-, -, axes⟩ | ⟨-, -, axes⟩ <;> simp only [Inside, axes]
  exact and_comm

/-- There is a point at a place along the part that clipping leaves of a segment. -/
def Keeps (s : Segment) (first last v : ℤ) : Prop :=
  ∃ part a b, s.clip? Float first last = some part ∧ s.Clipped first last part a b ∧
    ∃ p ∈ part.walk, s.along p = v

/-- Clipping keeps a place along a line where the line is in the square. -/
lemma keeps_of_inside (moderate : s.Moderate first last) (nonneg : 0 ≤ c) (le : c ≤ 1)
    (inside : s.Inside first last c) {v : ℤ} (place : s.alongAt c = v) : s.Keeps first last v := by
  obtain ⟨part, a, b, found, clipped⟩ := exists_clipped moderate nonneg le inside
  exact ⟨part, a, b, found, clipped, clipped.exists_along moderate nonneg le inside place⟩

/-- Clipping keeps a line where its walk is in the square, and not on the border. -/
lemma Inner.keeps (inner : s.Inner first last q) (moderate : s.Moderate first last)
    (mem : q ∈ s.walk) : s.Keeps first last (s.along q) := by
  obtain ⟨c, ⟨nonneg, le⟩, place, near, -⟩ := exists_asideAt mem
  obtain ⟨⟨low, high⟩, above, below⟩ := inner
  refine keeps_of_inside moderate nonneg le (inside_iff.mpr ?_) place
  have above' : (first : ℚ) + 1 ≤ s.aside q := by exact_mod_cast above
  have below' : (s.aside q : ℚ) + 1 ≤ last := by exact_mod_cast below
  rw [abs_le] at near
  rw [place]
  exact ⟨⟨by exact_mod_cast low, by exact_mod_cast high⟩, by linarith, by linarith⟩

/-- Clipping keeps a straight line where its walk is in the square. -/
lemma Straight.keeps (straight : s.Straight) (moderate : s.Moderate first last)
    (mem : q ∈ s.walk) (within : q.InSquare first last) : s.Keeps first last (s.along q) := by
  obtain ⟨c, ⟨nonneg, le⟩, place, -, exact⟩ := exists_asideAt mem
  refine keeps_of_inside moderate nonneg le (inside_iff.mpr ?_) place
  rw [place, exact straight]
  norm_cast
  rcases s.axes with ⟨-, axes, -⟩ | ⟨-, axes, -⟩ <;> simp only [axes]
  exacts [within, within.symm]

end Segment

namespace Canvas

variable (c : Canvas) (s : Segment) (color : Color) (brush : Int)

/-- Draws a line by its whole walk, without regard to where the canvas is. -/
def drawPlainLine : Canvas := s.walk.foldl (fun c p => c.stamp p color brush) c

/-- A walk can pass a cell within reach of the canvas where the line itself, half a cell aside, is
out of reach. Clipping loses the stamp there. -/
theorem drawLine_ne_plain :
    (blank 1 .white).drawLine ⟨⟨-1, -1⟩, ⟨0, 1⟩⟩ .red 1 ≠
        (blank 1 .white).drawPlainLine ⟨⟨-1, -1⟩, ⟨0, 1⟩⟩ .red 1 ∧
      ((blank 1 .white).drawLine ⟨⟨-1, -1⟩, ⟨0, 1⟩⟩ .red 1).get? ⟨0, 0⟩ = some .white ∧
      ((blank 1 .white).drawPlainLine ⟨⟨-1, -1⟩, ⟨0, 1⟩⟩ .red 1).get? ⟨0, 0⟩ = some .red := by
  have clipped : ((blank 1 .white).drawLine ⟨⟨-1, -1⟩, ⟨0, 1⟩⟩ .red 1).get? ⟨0, 0⟩ =
      some .white := by
    decide +kernel
  have plain : ((blank 1 .white).drawPlainLine ⟨⟨-1, -1⟩, ⟨0, 1⟩⟩ .red 1).get? ⟨0, 0⟩ =
      some .red := by
    decide +kernel
  refine ⟨fun same => ?_, clipped, plain⟩
  rw [same, plain] at clipped
  cases clipped

variable {c s brush}

/-- A line is stamped along the walk of its clipped part. -/
lemma mem_lineCentres {K : Type} [Scalar K] {size radius : ℕ} {p : Point} :
    p ∈ lineCentres K size s radius ↔
      ∃ part, s.clip? K (reachFirst radius) (reachLast size radius) = some part ∧
        p ∈ part.walk := by
  rw [lineCentres]
  split <;> simp [*]

/-- A straight line is stamped wherever its walk is within reach. -/
lemma stampAll_lineCentres_of_straight {radius : ℕ} (straight : s.Straight)
    (moderate : s.Moderate (reachFirst radius) (reachLast c.size radius)) :
    c.stampAll (lineCentres Float c.size s radius) radius color =
      c.stampAll s.walk radius color := by
  refine c.stampAll_congr radius color fun q => ⟨?_, ?_⟩
  · rintro ⟨p, mem, touched⟩
    obtain ⟨part, found, mem'⟩ := mem_lineCentres.mp mem
    obtain ⟨a, b, clipped⟩ := Segment.clipped_of_clip? moderate found
    obtain ⟨p', plain, same⟩ := clipped.exists_mem_walk mem'
    rw [clipped.eq_of_straight straight mem' plain same] at touched
    exact ⟨p', plain, touched⟩
  · rintro ⟨p, mem, touched⟩
    obtain ⟨part, a, b, found, clipped, p', mem', same⟩ :=
      straight.keeps moderate mem (reach_of_mem_disk touched)
    rw [← clipped.eq_of_straight straight mem' mem same] at touched
    exact ⟨p', mem_lineCentres.mpr ⟨part, found, mem'⟩, touched⟩

/-- No stamp of a line beyond one side touches the canvas. -/
lemma stampAll_walk_of_misses {radius : ℕ}
    (misses : s.Misses (reachFirst radius) (reachLast c.size radius)) :
    c.stampAll s.walk radius color = c := by
  change c.stampAll s.walk radius color = c.stampAll [] radius color
  refine c.stampAll_congr radius color fun q => ⟨?_, ?_⟩
  · rintro ⟨p, mem, touched⟩
    exact absurd (reach_of_mem_disk touched) (misses.outside mem)
  · rintro ⟨p, mem, -⟩
    exact absurd mem List.not_mem_nil

variable (c s brush)

/-- A line is drawn just as by its whole walk if both its ends are within reach of the canvas or
beyond the same side of it, or if it is straight. Any other line is stamped beside its walk: each
stamp is at most one cell aside of a point of the walk, and there is such a stamp for every point
that is within reach and not at its border. An end within reach is itself stamped. -/
theorem drawLine_beside_plain (start : |s.start.x| ≤ 2 ^ 31 ∧ |s.start.y| ≤ 2 ^ 31)
    (stop : |s.stop.x| ≤ 2 ^ 31 ∧ |s.stop.y| ≤ 2 ^ 31) (narrow : brush ≤ 2 ^ 31) :
    let first := reachFirst (brushRadius brush)
    let last := reachLast c.size (brushRadius brush)
    let centres := lineCentres Float c.size s (brushRadius brush)
    c.drawLine s color brush = centres.foldl (fun c p => c.stamp p color brush) c ∧
    ((∀ p ∈ [s.start, s.stop], p.InSquare first last) ∨ s.Misses first last ∨ s.Straight →
      c.drawLine s color brush = c.drawPlainLine s color brush) ∧
    (∀ p ∈ centres, ∃ q ∈ s.walk, s.Beside p q) ∧
    (∀ q ∈ s.walk, s.Inner first last q → ∃ p ∈ centres, s.Beside p q) ∧
    ∀ p ∈ [s.start, s.stop], p.InSquare first last → p ∈ centres := by
  intro first last centres
  have radius := Checked.brushRadius_lt narrow
  have moderate : s.Moderate first last := by
    refine ⟨start.1, start.2, stop.1, stop.2, ?_, ?_⟩
    · simp only [first, reachFirst, abs_le]
      omega
    · simp only [last, reachLast]
      omega
  refine ⟨rfl, ?_, ?_, ?_, ?_⟩
  · -- the whole walk, no walk, and a walk that clipping only shortens
    rintro (within | misses | straight)
    · have whole := Segment.clip?_of_inside moderate
        (Segment.inside_zero.mpr (within _ (by simp))) (Segment.inside_one.mpr (within _ (by simp)))
      rw [drawLine, drawLineIn, lineCentres, whole]
      rfl
    · rw [drawLine, drawLineIn, lineCentres, misses.clip? moderate]
      exact (stampAll_walk_of_misses color misses).symm
    · exact stampAll_lineCentres_of_straight color straight moderate
  · intro p mem
    obtain ⟨part, found, mem'⟩ := mem_lineCentres.mp mem
    obtain ⟨a, b, clipped⟩ := Segment.clipped_of_clip? moderate found
    obtain ⟨q, plain, same⟩ := clipped.exists_mem_walk mem'
    exact ⟨q, plain, clipped.beside mem' plain same⟩
  · intro q mem inner
    obtain ⟨part, a, b, found, clipped, p, mem', same⟩ := inner.keeps moderate mem
    exact ⟨p, mem_lineCentres.mpr ⟨part, found, mem'⟩, clipped.beside mem' mem same⟩
  · intro p mem within
    exact mem_lineCentres.mpr (Segment.exists_clip?_of_end moderate mem within)

/-- A line across the canvas from far above to far below, with the greatest brush, and a sloped line
that clipping cuts at both ends. -/
theorem drawLine_beside_plain_far :
    let upright : Segment := ⟨⟨1, -2 ^ 31⟩, ⟨1, 2 ^ 31⟩⟩
    let sloped : Segment := ⟨⟨-9, -4⟩, ⟨14, 9⟩⟩
    upright.Straight ∧ ⟨2, 2⟩ ∈ sloped.walk ∧ sloped.Inner 0 4 ⟨2, 2⟩ ∧
      (blank 5 .white).drawLine upright .red (2 ^ 31) =
        (blank 5 .white).drawPlainLine upright .red (2 ^ 31) ∧
      ∃ p ∈ lineCentres Float 5 sloped 0, sloped.Beside p ⟨2, 2⟩ := by
  intro upright sloped
  have straight : upright.Straight := .inl rfl
  have mem : ⟨2, 2⟩ ∈ sloped.walk := by decide
  have inner : sloped.Inner 0 4 ⟨2, 2⟩ := by
    unfold Segment.Inner
    decide
  obtain ⟨-, same, -⟩ := drawLine_beside_plain (blank 5 .white) upright .red (2 ^ 31)
    (by decide) (by decide) le_rfl
  obtain ⟨-, -, -, beside, -⟩ := drawLine_beside_plain (blank 5 .white) sloped .red 1
    (by decide) (by decide) (by decide)
  exact ⟨straight, mem, inner, same (.inr (.inr straight)), beside _ mem inner⟩

end Canvas

end Easel
