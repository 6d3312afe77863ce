import Easel.Proofs.CheckedStrokes
import Easel.Proofs.ExactClipping
import Mathlib.Algebra.Order.Archimedean.Real.Basic
import Mathlib.Analysis.Convex.Segment

/-!
# Clipping on the real plane

The points of a segment are those of the real plane, while clipping finds rational parameters. These
are enough: the parameters at which a segment is in a square fulfil some inequalities with integers
for coefficients, and where a real number fulfils them, so do a rational one not above it and one
not below it (`Edge.exists_rat_le`, `Edge.exists_rat_ge`). So the real parameters inside are those
from the first to the last rational one (`Segment.passage_eq_Icc`), and nothing is left of a segment
exactly if it does not meet the square. Else what is left goes from a cell nearest to the first
point inside to a cell nearest to the last one (`Segment.clipped_passage`).
-/

namespace Easel

namespace Edge

variable {e : Edge} {r t u : ℝ}

/-- What is between two parameters on the inner side of an edge is on the inner side, too. -/
lemma inner_between (before : e.slope * r ≤ e.room) (after : e.slope * u ≤ e.room) (low : r ≤ t)
    (high : t ≤ u) : e.slope * t ≤ e.room := by
  rcases le_total 0 (e.slope : ℝ) with upward | downward
  · exact (mul_le_mul_of_nonneg_left high upward).trans after
  · exact (mul_le_mul_of_nonpos_left low downward).trans before

/-- Where a real parameter is on the inner side of some edges, so is a rational one not above it. -/
lemma exists_rat_le (edges : List Edge) (inner : ∀ e ∈ edges, e.slope * t ≤ e.room) :
    ∃ c : ℚ, c ≤ t ∧ ∀ e ∈ edges, e.slope * (c : ℝ) ≤ e.room := by
  induction edges with
  | nil =>
    obtain ⟨c, less⟩ := exists_rat_lt t
    exact ⟨c, less.le, by simp⟩
  | cons e edges ih =>
    obtain ⟨here, others⟩ := List.forall_mem_cons.mp inner
    obtain ⟨c, le, within⟩ := ih others
    rcases lt_or_ge (e.slope : ℝ) 0 with negative | nonneg
    · -- the edge is crossed not later than at `t`, and the crossing is rational
      have crossed : max (c : ℝ) (e.room / e.slope) ≤ t :=
        max_le le ((div_le_iff_of_neg' negative).mpr here)
      refine ⟨max c (e.room / e.slope), ?_, List.forall_mem_cons.mpr ⟨?_, fun e' mem => ?_⟩⟩ <;>
        push_cast
      · exact crossed
      · exact (div_le_iff_of_neg' negative).mp (le_max_right _ _)
      · exact inner_between (within e' mem) (others e' mem) (le_max_left _ _) crossed
    · exact ⟨c, le, List.forall_mem_cons.mpr
        ⟨(mul_le_mul_of_nonneg_left le nonneg).trans here, within⟩⟩

/-- The edge as a segment meets it that goes the other way. -/
def opposite (e : Edge) : Edge := ⟨-e.slope, e.room⟩

/-- What is on the inner side of some edges has a rational number above it that is there, too. -/
lemma exists_rat_ge (edges : List Edge) (inner : ∀ e ∈ edges, e.slope * t ≤ e.room) :
    ∃ c : ℚ, t ≤ c ∧ ∀ e ∈ edges, e.slope * (c : ℝ) ≤ e.room := by
  have turned : ∀ e ∈ edges.map opposite, e.slope * (-t) ≤ e.room := by
    rw [List.forall_mem_map]
    intro e mem
    rw [opposite, Int.cast_neg, neg_mul_neg]
    exact inner e mem
  obtain ⟨c, le, within⟩ := exists_rat_le _ turned
  rw [List.forall_mem_map] at within
  refine ⟨-c, by push_cast; linarith, fun e mem => ?_⟩
  have := within e mem
  rw [opposite, Int.cast_neg] at this
  push_cast
  linarith

end Edge

/-- A cell as a point of the plane. -/
noncomputable def Point.onPlane (p : Point) : ℝ × ℝ := (p.x, p.y)

/-- A cell is at most half a cell away from a point of the plane, on each axis. -/
def Point.WithinHalf (p : Point) (q : ℝ × ℝ) : Prop := |p.x - q.1| ≤ 1 / 2 ∧ |p.y - q.2| ≤ 1 / 2

/-- The square of the plane between two coordinates, which are the same on both axes. -/
def square (first last : ℤ) : Set (ℝ × ℝ) := Set.Icc (first : ℝ) last ×ˢ Set.Icc (first : ℝ) last

/-- A cell is in the square exactly if its coordinates are in bounds. -/
lemma onPlane_mem_square {p : Point} {first last : ℤ} :
    p.onPlane ∈ square first last ↔ (first ≤ p.x ∧ p.x ≤ last) ∧ first ≤ p.y ∧ p.y ≤ last := by
  simp only [square, Point.onPlane, Set.mem_prod, Set.mem_Icc, Int.cast_le]

/-- The nearest integer is at most one half away. -/
lemma near_nearestInt (q : ℚ) : |nearestInt q - q| ≤ 1 / 2 := by
  rw [nearestInt, abs_le]
  split
  · have low := Int.lt_floor_add_one (q + 1 / 2)
    have high := Int.floor_le (q + 1 / 2)
    constructor <;> linarith
  · have low := Int.le_ceil (q - 1 / 2)
    have high := Int.ceil_lt_add_one (q - 1 / 2)
    constructor <;> linarith

namespace Segment

/-- The point of the plane at a parameter of a segment. -/
noncomputable def pointAt (s : Segment) (t : ℝ) : ℝ × ℝ :=
  AffineMap.lineMap s.start.onPlane s.stop.onPlane t

/-- The parameters at which a segment is in a square. -/
def passage (s : Segment) (first last : ℤ) : Set ℝ :=
  {t | t ∈ Set.Icc 0 1 ∧ s.pointAt t ∈ square first last}

variable {s : Segment} {first last : ℤ}

/-- The coordinates of the point at a parameter. -/
lemma pointAt_eq (t : ℝ) :
    s.pointAt t = (s.start.x + t * (s.stop.x - s.start.x : ℤ),
      s.start.y + t * (s.stop.y - s.start.y : ℤ)) := by
  simp only [pointAt, Point.onPlane, AffineMap.lineMap_apply_module', Prod.mk_sub_mk, Prod.smul_mk,
    Prod.mk_add_mk, smul_eq_mul]
  push_cast
  rw [add_comm (s.start.x : ℝ), add_comm (s.start.y : ℝ)]

/-- At rational parameters, the coordinates are rational. -/
lemma pointAt_ratCast (c : ℚ) : s.pointAt c = ((s.xAt c : ℝ), (s.yAt c : ℝ)) := by
  rw [pointAt_eq, xAt, yAt]
  push_cast
  rfl

/-- The first point of a segment is its first end. -/
lemma pointAt_zero : s.pointAt 0 = s.start.onPlane := AffineMap.lineMap_apply_zero _ _

/-- The last point of a segment is its last end. -/
lemma pointAt_one : s.pointAt 1 = s.stop.onPlane := AffineMap.lineMap_apply_one _ _

/-- A segment meets a square exactly if it is there at a parameter. -/
lemma disjoint_square_iff :
    Disjoint (segment ℝ s.start.onPlane s.stop.onPlane) (square first last) ↔
      s.passage first last = ∅ := by
  rw [segment_eq_image_lineMap, Set.disjoint_image_left, Set.disjoint_iff_inter_eq_empty]
  rfl

/-- The parameters of a passage are those on the inner sides of its ends and of the edges of the
square. -/
lemma mem_passage {t : ℝ} :
    t ∈ s.passage first last ↔
      ∀ e ∈ ⟨-1, 0⟩ :: ⟨1, 1⟩ :: s.edges first last, (e.slope : ℝ) * t ≤ e.room := by
  simp only [List.forall_mem_cons, forall_mem_edges, passage, pointAt_eq, square, Set.mem_ofPred_eq,
    Set.mem_prod, Set.mem_Icc]
  push_cast
  constructor
  · rintro ⟨⟨nonneg, le⟩, ⟨left, right⟩, above, below⟩
    refine ⟨?_, ?_, ?_, ?_, ?_, ?_⟩ <;> linarith
  · rintro ⟨nonneg, le, left, right, above, below⟩
    refine ⟨⟨?_, ?_⟩, ⟨?_, ?_⟩, ?_, ?_⟩ <;> linarith

/-- The rational parameters of the passage are those of points in the square. -/
lemma ratCast_mem_passage {c : ℚ} :
    (c : ℝ) ∈ s.passage first last ↔ (0 ≤ c ∧ c ≤ 1) ∧ s.Inside first last c := by
  simp only [passage, pointAt_ratCast, square, Inside, Set.mem_ofPred_eq, Set.mem_prod, Set.mem_Icc]
  norm_cast

/-- If there are no rational parameters of the passage, there are no others. -/
lemma passage_eq_empty (never : ∀ c, 0 ≤ c → c ≤ 1 → ¬ s.Inside first last c) :
    s.passage first last = ∅ := by
  refine Set.eq_empty_of_forall_notMem fun t mem => ?_
  obtain ⟨c, -, inner⟩ := Edge.exists_rat_le _ (mem_passage.mp mem)
  obtain ⟨⟨nonneg, le⟩, inside⟩ := ratCast_mem_passage.mp (mem_passage.mpr inner)
  exact never c nonneg le inside

/-- The passage of a segment goes from its first rational parameter to its last one. -/
lemma passage_eq_Icc {a b : ℚ} (le : a ≤ b)
    (mem : ∀ c, (0 ≤ c ∧ c ≤ 1) ∧ s.Inside first last c ↔ a ≤ c ∧ c ≤ b) :
    s.passage first last = Set.Icc (a : ℝ) b := by
  ext t
  constructor
  · intro inside
    obtain ⟨c, low, inner⟩ := Edge.exists_rat_le _ (mem_passage.mp inside)
    obtain ⟨d, high, inner'⟩ := Edge.exists_rat_ge _ (mem_passage.mp inside)
    have least := ((mem c).mp (ratCast_mem_passage.mp (mem_passage.mpr inner))).1
    have greatest := ((mem d).mp (ratCast_mem_passage.mp (mem_passage.mpr inner'))).2
    exact ⟨(Rat.cast_le.mpr least).trans low, high.trans (Rat.cast_le.mpr greatest)⟩
  · rintro ⟨low, high⟩
    have enters := mem_passage.mp (ratCast_mem_passage.mpr ((mem a).mpr ⟨le_rfl, le⟩))
    have leaves := mem_passage.mp (ratCast_mem_passage.mpr ((mem b).mpr ⟨le, le_rfl⟩))
    exact mem_passage.mpr fun e edge => Edge.inner_between (enters e edge) (leaves e edge) low high

/-- Clipping leaves the cells at the first and at the last parameter of the passage. -/
lemma clip?_passage (s : Segment) (first last : ℤ) :
    (s.clip? ℚ first last = none ∧ s.passage first last = ∅) ∨
    ∃ a b : ℚ, a ≤ b ∧ s.passage first last = Set.Icc (a : ℝ) b ∧
      s.clip? ℚ first last = some ⟨s.cellAt ℚ first last a, s.cellAt ℚ first last b⟩ := by
  rcases s.clip?_cases first last with ⟨none, never⟩ | ⟨a, b, le, mem, some⟩
  · exact .inl ⟨none, passage_eq_empty never⟩
  · exact .inr ⟨a, b, le, passage_eq_Icc le mem, some⟩

/-- The integer nearest to a coordinate in the square is not brought elsewhere. -/
lemma clamp_nearestInt {q : ℚ} (low : first ≤ q) (high : q ≤ last) :
    clamp first last (nearestInt q) = nearestInt q := by
  have positive : 0 < Edge.slack := by norm_num [Edge.slack]
  refine clamp_of_near ((near_nearestInt q).trans ?_) ?_ ?_ <;> linarith

/-- The cell at a parameter inside the square is a nearest one. -/
lemma withinHalf_cellAt {c : ℚ} (inside : s.Inside first last c) :
    (s.cellAt ℚ first last c).WithinHalf (s.pointAt c) := by
  obtain ⟨⟨left, right⟩, above, below⟩ := inside
  have cell : s.cellAt ℚ first last c = ⟨nearestInt (s.xAt c), nearestInt (s.yAt c)⟩ := by
    change (⟨clamp first last (nearestInt (s.xAt c)), clamp first last (nearestInt (s.yAt c))⟩ :
      Point) = _
    rw [clamp_nearestInt left right, clamp_nearestInt above below]
  have near (q : ℚ) : |(nearestInt q : ℝ) - q| ≤ 1 / 2 := by
    have := (Rat.cast_le (K := ℝ)).mpr (near_nearestInt q)
    push_cast at this
    exact this
  rw [cell, pointAt_ratCast]
  exact ⟨near _, near _⟩

/-- The cell at a parameter is in the square. -/
lemma cellAt_mem_square (order : first ≤ last) (c : ℚ) :
    (s.cellAt ℚ first last c).onPlane ∈ square first last := by
  rw [onPlane_mem_square]
  simp only [cellAt, clamp]
  omega

/-- A first end in the square is part of the passage. -/
lemma zero_mem_passage (inside : s.start.onPlane ∈ square first last) :
    (0 : ℝ) ∈ s.passage first last :=
  ⟨⟨le_rfl, zero_le_one⟩, by rwa [pointAt_zero]⟩

/-- A last end in the square is part of the passage. -/
lemma one_mem_passage (inside : s.stop.onPlane ∈ square first last) :
    (1 : ℝ) ∈ s.passage first last :=
  ⟨⟨zero_le_one, le_rfl⟩, by rwa [pointAt_one]⟩

section Passage

variable {a b : ℚ} (le : a ≤ b) (passage : s.passage first last = Set.Icc (a : ℝ) b)
include le passage

/-- The passage begins in the square. -/
lemma first_inside : (0 ≤ a ∧ a ≤ 1) ∧ s.Inside first last a := by
  rw [← ratCast_mem_passage, passage]
  exact ⟨le_rfl, Rat.cast_le.mpr le⟩

/-- The passage ends in the square. -/
lemma last_inside : (0 ≤ b ∧ b ≤ 1) ∧ s.Inside first last b := by
  rw [← ratCast_mem_passage, passage]
  exact ⟨Rat.cast_le.mpr le, le_rfl⟩

/-- An end of a segment in the square is where its passage begins or ends. -/
lemma cellAt_first (inside : s.start.onPlane ∈ square first last) :
    s.cellAt ℚ first last a = s.start := by
  obtain ⟨⟨nonneg, -⟩, here⟩ := first_inside le passage
  have mem := zero_mem_passage inside
  rw [passage] at mem
  obtain rfl : a = 0 := le_antisymm (by exact_mod_cast mem.1) nonneg
  exact cellAt_zero here

/-- A last end in the square is not cut off. -/
lemma cellAt_last (inside : s.stop.onPlane ∈ square first last) :
    s.cellAt ℚ first last b = s.stop := by
  obtain ⟨⟨-, le_one⟩, here⟩ := last_inside le passage
  have mem := one_mem_passage inside
  rw [passage] at mem
  obtain rfl : b = 1 := le_antisymm le_one (by exact_mod_cast mem.2)
  exact cellAt_one here

end Passage

/-- A segment with both ends in the square stays as it is. -/
lemma clip?_of_ends (start : s.start.onPlane ∈ square first last)
    (stop : s.stop.onPlane ∈ square first last) : s.clip? ℚ first last = some s := by
  rcases s.clip?_passage first last with ⟨-, empty⟩ | ⟨a, b, le, passage, clipped⟩
  · have mem := zero_mem_passage start
    rw [empty] at mem
    exact mem.elim
  · rw [clipped, cellAt_first le passage start, cellAt_last le passage stop]

/-- Where a segment is in a square of words, it is rounded to words. -/
lemma roundsToWords_of_inside {c : ℚ} (low : Checked.IsWord first) (high : Checked.IsWord last)
    (inside : s.Inside first last c) : Checked.RoundsToWords s c := by
  obtain ⟨⟨left, right⟩, above, below⟩ := inside
  have order : first ≤ last := by exact_mod_cast left.trans right
  have x := clamp_nearestInt left right
  have y := clamp_nearestInt above below
  rw [Checked.isWord_iff] at low high
  rw [clamp] at x y
  change Checked.IsWord (nearestInt (s.xAt c)) ∧ Checked.IsWord (nearestInt (s.yAt c))
  rw [Checked.isWord_iff, Checked.isWord_iff]
  omega

/-- Clipping to a square of words is computed in words, as long as the differences between the ends
of the segment are words. -/
lemma checked_clip?_eq (low : Checked.IsWord first) (high : Checked.IsWord last)
    (dx : Checked.IsWord (s.stop.x - s.start.x)) (dy : Checked.IsWord (s.stop.y - s.start.y)) :
    Checked.clip? ℚ s first last = some (s.clip? ℚ first last) := by
  refine Checked.clip?_eq dx dy fun stretch found => ?_
  have leaves := s.leaves_stretch? first last
  rw [found] at leaves
  cases leaves with
  | stretch le mem =>
    exact ⟨roundsToWords_of_inside low high ((mem _).mpr ⟨le_rfl, le⟩).2,
      roundsToWords_of_inside low high ((mem _).mpr ⟨le, le_rfl⟩).2⟩

/-- In exact numbers, clipping leaves nothing of a segment exactly if the segment and the square
have no point of the plane in common. Else it leaves a segment with both ends in the square: an end
that was there before is kept, and each end is a cell nearest to the first or the last point of the
segment in the square. So clipping again changes nothing. No integer that is computed on the way
leaves the range of machine words, if the bounds of the square and the differences between the ends
of the segment are words. -/
theorem clipped_passage (s : Segment) {first last : ℤ} (order : first ≤ last) :
    (s.clip? ℚ first last = none ↔
      Disjoint (segment ℝ s.start.onPlane s.stop.onPlane) (square first last)) ∧
    (∀ part, s.clip? ℚ first last = some part →
      (part.start.onPlane ∈ square first last ∧ part.stop.onPlane ∈ square first last) ∧
      (s.start.onPlane ∈ square first last → part.start = s.start) ∧
      (s.stop.onPlane ∈ square first last → part.stop = s.stop) ∧
      (∃ a, IsLeast (s.passage first last) a ∧ part.start.WithinHalf (s.pointAt a)) ∧
      (∃ b, IsGreatest (s.passage first last) b ∧ part.stop.WithinHalf (s.pointAt b)) ∧
      part.clip? ℚ first last = some part) ∧
    (Checked.IsWord first → Checked.IsWord last → Checked.IsWord (s.stop.x - s.start.x) →
      Checked.IsWord (s.stop.y - s.start.y) →
      Checked.clip? ℚ s first last = some (s.clip? ℚ first last)) := by
  rw [disjoint_square_iff, ← and_assoc]
  refine ⟨?_, checked_clip?_eq⟩
  rcases s.clip?_passage first last with ⟨none, empty⟩ | ⟨a, b, le, passage, clipped⟩
  · refine ⟨iff_of_true none empty, fun part found => ?_⟩
    rw [none] at found
    cases found
  · have le' : (a : ℝ) ≤ b := Rat.cast_le.mpr le
    have first_mem := cellAt_mem_square (s := s) order a
    have last_mem := cellAt_mem_square (s := s) order b
    rw [clipped, passage]
    refine ⟨iff_of_false nofun (Set.nonempty_Icc.mpr le').ne_empty, ?_⟩
    rintro _ ⟨⟩
    exact ⟨⟨first_mem, last_mem⟩, cellAt_first le passage, cellAt_last le passage,
      ⟨a, isLeast_Icc le', withinHalf_cellAt (first_inside le passage).2⟩,
      ⟨b, isGreatest_Icc le', withinHalf_cellAt (last_inside le passage).2⟩,
      clip?_of_ends first_mem last_mem⟩

/-- A segment that touches a corner of the square, and one that passes by it. -/
theorem clipped_passage_corner :
    let touching : Segment := ⟨⟨-1, 1⟩, ⟨1, -1⟩⟩
    let missing : Segment := ⟨⟨-2, 1⟩, ⟨1, -2⟩⟩
    let corner : Point := ⟨0, 0⟩
    touching.clip? ℚ 0 5 = some ⟨corner, corner⟩ ∧
      (∃ a, IsLeast (touching.passage 0 5) a ∧ corner.WithinHalf (touching.pointAt a)) ∧
      missing.clip? ℚ 0 5 = none ∧
      Disjoint (segment ℝ missing.start.onPlane missing.stop.onPlane) (square 0 5) ∧
      Checked.clip? ℚ missing 0 5 = some (missing.clip? ℚ 0 5) := by
  intro touching missing corner
  have order : (0 : ℤ) ≤ 5 := by decide
  have touched : touching.clip? ℚ 0 5 = some ⟨corner, corner⟩ := by decide +kernel
  have missed : missing.clip? ℚ 0 5 = none := by decide +kernel
  obtain ⟨-, -, -, first, -⟩ := (touching.clipped_passage order).2.1 _ touched
  obtain ⟨apart, -, words⟩ := missing.clipped_passage order
  exact ⟨touched, first, missed, apart.mp missed,
    words (by decide) (by decide) (by decide) (by decide)⟩

end Segment

end Easel
