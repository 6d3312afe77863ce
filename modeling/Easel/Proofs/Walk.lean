import Easel.Canvas.Stroke
import Easel.Proofs.Checked
import Mathlib.Algebra.Order.Ring.Abs
import Mathlib.Data.List.Range
import Mathlib.Order.Interval.Set.UnorderedInterval
import Mathlib.Tactic.Lemma
import Mathlib.Tactic.Linarith
import Mathlib.Tactic.Ring

/-!
# Walks along segments

After `k` steps, a walk has gone `k` cells along the longer axis of its segment, and the measure of
how far the line passes is bounded (`Segment.OnWalk`). So the walk stays between the ends of its
segment, and it gets to the end with as many steps as the longer axis has
(`Segment.OnWalk.point_eq_stop`), but not earlier (`Segment.OnWalk.point_ne_stop`).

The loop of a walk ends only when it is at the end of the segment, so what holds after each step
holds of the whole walk (`Segment.walk_line`): it is a chain of steps from the start to the end,
within half a cell of the line.

The bounds of the measure are also those of the numbers that a walk computes. If the ends of a
segment are machine words, and so are three times its width and its height, then all of these
numbers are words (`Checked.walk_eq`).
-/

namespace Easel

namespace Segment

variable {s : Segment} {k : Int} {step : Step}

/-- The direction of a walk along the first axis. -/
def sideX (s : Segment) : Int := if s.start.x < s.stop.x then 1 else -1

/-- The direction of a walk along the second axis. -/
def sideY (s : Segment) : Int := if s.start.y < s.stop.y then 1 else -1

/-- The width of a segment is not negative. -/
lemma width_nonneg (s : Segment) : 0 ≤ s.width := Int.natCast_nonneg _

/-- The height of a segment is not negative. -/
lemma height_nonneg (s : Segment) : 0 ≤ s.height := Int.natCast_nonneg _

/-- The last end is the width and the height away from the first. -/
lemma stop_eq (s : Segment) :
    s.stop = s.start.shift (s.sideX * s.width) (s.sideY * s.height) := by
  obtain ⟨⟨x, y⟩, ⟨x', y'⟩⟩ := s
  simp only [Point.shift, sideX, sideY, width, height, Point.mk.injEq]
  constructor <;> split <;> omega

/-- What holds on a walk after `k` steps. It has gone `i` cells along the first axis and `j` along
the second. Along the longer axis these are as many as the steps, and the error differs from that at
the start by no more than half of that axis. So the walk takes the next step along it, too. -/
structure OnWalk (s : Segment) (k : Int) (step : Step) (i j : Int) : Prop where
  point : step.point = s.start.shift (s.sideX * i) (s.sideY * j)
  error : step.error = s.width - s.height - i * s.height + j * s.width
  x : 0 ≤ i ∧ i ≤ s.width
  y : 0 ≤ j ∧ j ≤ s.height
  along : s.height ≤ s.width ∧ i = k ∧
      s.width - 2 * s.height ≤ 2 * step.error ∧ 2 * step.error ≤ 3 * s.width - 2 * s.height ∨
    s.width < s.height ∧ j = k ∧
      2 * s.width - 3 * s.height ≤ 2 * step.error ∧ 2 * step.error ≤ 2 * s.width - s.height

/-- The first step of a walk is on it. -/
lemma onWalk_firstStep (s : Segment) : OnWalk s 0 s.firstStep 0 0 where
  point := by simp [firstStep, Point.shift]
  error := by simp [firstStep]
  x := ⟨le_rfl, s.width_nonneg⟩
  y := ⟨le_rfl, s.height_nonneg⟩
  along := by
    have := s.width_nonneg
    have := s.height_nonneg
    rcases le_or_gt s.height s.width with wider | higher
    · exact .inl ⟨wider, rfl, by simp only [firstStep]; omega, by simp only [firstStep]; omega⟩
    · exact .inr ⟨higher, rfl, by simp only [firstStep]; omega, by simp only [firstStep]; omega⟩

/-- A walk does not leave its segment along the shorter axis. -/
lemma le_of_error {a b i j : Int} (long : 0 < a) (short : 0 ≤ b) (le : j ≤ a)
    (error : 2 * (i * a) ≤ a + 2 * (j * b)) : i ≤ b := by
  by_contra beyond
  have further : (b + 1) * a ≤ i * a := Int.mul_le_mul_of_nonneg_right (by omega) long.le
  have within : j * b ≤ a * b := Int.mul_le_mul_of_nonneg_right le short
  nlinarith

/-- How far the next step goes along the first axis. -/
def across (s : Segment) (step : Step) : Int := if -s.height ≤ 2 * step.error then 1 else 0

/-- How far the next step goes along the second axis. -/
def down (s : Segment) (step : Step) : Int := if 2 * step.error ≤ s.width then 1 else 0

/-- A step goes across or down, and the error changes with it. -/
lemma next_eq (s : Segment) (step : Step) :
    s.next step =
      ⟨step.point.shift (s.sideX * s.across step) (s.sideY * s.down step),
        step.error - s.across step * s.height + s.down step * s.width⟩ := by
  simp only [next, decide_eq_true_eq, sideX, sideY, across, down]
  by_cases first : -s.height ≤ 2 * step.error <;> by_cases second : 2 * step.error ≤ s.width <;>
    simp [first, second]

/-- A step goes across if the error is not too small. -/
lemma across_of_le (low : -s.height ≤ 2 * step.error) : s.across step = 1 := if_pos low

/-- A step goes down if the error is not too great. -/
lemma down_of_le (high : 2 * step.error ≤ s.width) : s.down step = 1 := if_pos high

/-- A walk goes on along the longer axis, until it has gone its whole length. -/
lemma OnWalk.next {i j : Int} (on : OnWalk s k step i j)
    (going : k < s.width ∨ k < s.height) :
    OnWalk s (k + 1) (s.next step) (i + s.across step) (j + s.down step) := by
  obtain ⟨point, error, x, y, along⟩ := on
  have width := s.width_nonneg
  have height := s.height_nonneg
  have error' : (s.next step).error =
      s.width - s.height - (i + s.across step) * s.height + (j + s.down step) * s.width := by
    rw [next_eq, error]
    ring
  -- the longer axis gains one step, and the error stays within the bounds of that axis
  have along' : s.height ≤ s.width ∧ i + s.across step = k + 1 ∧
        s.width - 2 * s.height ≤ 2 * (s.next step).error ∧
        2 * (s.next step).error ≤ 3 * s.width - 2 * s.height ∨
      s.width < s.height ∧ j + s.down step = k + 1 ∧
        2 * s.width - 3 * s.height ≤ 2 * (s.next step).error ∧
        2 * (s.next step).error ≤ 2 * s.width - s.height := by
    rw [next_eq]
    rcases along with ⟨wider, rfl, low, high⟩ | ⟨higher, rfl, low, high⟩
    · left
      rw [across_of_le (by omega), one_mul]
      by_cases further : 2 * step.error ≤ s.width
      · rw [down_of_le further, one_mul]
        exact ⟨wider, rfl, by simp only; omega, by simp only; omega⟩
      · rw [down, if_neg further, zero_mul]
        exact ⟨wider, rfl, by simp only; omega, by simp only; omega⟩
    · right
      rw [down_of_le (by omega), one_mul]
      by_cases further : -s.height ≤ 2 * step.error
      · rw [across_of_le further, one_mul]
        exact ⟨higher, rfl, by simp only; omega, by simp only; omega⟩
      · rw [across, if_neg further, zero_mul]
        exact ⟨higher, rfl, by simp only; omega, by simp only; omega⟩
  have aside : 0 ≤ s.across step ∧ 0 ≤ s.down step := by
    unfold across down
    constructor <;> split <;> omega
  refine ⟨?_, error', ?_, ?_, along'⟩
  · rw [next_eq, point]
    simp only [Point.shift, Point.mk.injEq]
    constructor <;> ring
  · -- the shorter axis is not overrun, as the error would be too large beyond its end
    refine ⟨by omega, ?_⟩
    rcases along' with ⟨wider, gone, -⟩ | ⟨higher, gone, low, -⟩
    · omega
    · exact le_of_error (a := s.height) (j := j + s.down step) (by omega) width (by omega)
        (by omega)
  · refine ⟨by omega, ?_⟩
    rcases along' with ⟨wider, gone, -, high⟩ | ⟨higher, gone, -⟩
    · exact le_of_error (a := s.width) (j := i + s.across step) (by omega) height (by omega)
        (by omega)
    · omega

/-- A walk has got to the end of its segment after as many steps as the longer axis has. -/
lemma OnWalk.point_eq_stop {i j : Int} (on : OnWalk s k step i j) (x : s.width ≤ k)
    (y : s.height ≤ k) : step.point = s.stop := by
  obtain ⟨point, error, inX, inY, along⟩ := on
  -- the error leaves no room for the shorter axis to be behind at the end
  have ends : i = s.width ∧ j = s.height := by
    rcases along with ⟨wider, gone, low, -⟩ | ⟨higher, gone, -, high⟩
    · have whole : i = s.width := by omega
      refine ⟨whole, ?_⟩
      by_contra short
      have behind : j * s.width ≤ (s.height - 1) * s.width :=
        Int.mul_le_mul_of_nonneg_right (by omega) s.width_nonneg
      have flat : s.height ≤ 0 := by
        rw [whole] at error
        nlinarith
      omega
    · have whole : j = s.height := by omega
      refine ⟨?_, whole⟩
      by_contra short
      have behind : i * s.height ≤ (s.width - 1) * s.height :=
        Int.mul_le_mul_of_nonneg_right (by omega) s.height_nonneg
      have flat : s.width ≤ 0 := by
        rw [whole] at error
        nlinarith
      omega
  rw [point, ends.1, ends.2, ← stop_eq]

/-- A walk goes right or left. -/
lemma sideX_eq (s : Segment) : s.sideX = 1 ∨ s.sideX = -1 := by
  unfold sideX
  split <;> simp

/-- A walk goes down or up. -/
lemma sideY_eq (s : Segment) : s.sideY = 1 ∨ s.sideY = -1 := by
  unfold sideY
  split <;> simp

/-- A walk stays between the ends of its segment. -/
lemma OnWalk.mem_uIcc {i j : Int} (on : OnWalk s k step i j) :
    step.point.x ∈ Set.uIcc s.start.x s.stop.x ∧ step.point.y ∈ Set.uIcc s.start.y s.stop.y := by
  have x := on.x
  have y := on.y
  rw [on.point, stop_eq s, Set.mem_uIcc, Set.mem_uIcc]
  simp only [Point.shift]
  rcases s.sideX_eq with right | left <;> rcases s.sideY_eq with down | up <;> simp only [*] <;>
    omega

/-- A walk does not get to the end of its segment earlier than that. -/
lemma OnWalk.point_ne_stop {i j : Int} (on : OnWalk s k step i j)
    (going : k < s.width ∨ k < s.height) : step.point ≠ s.stop := by
  intro arrived
  rw [on.point, stop_eq s, Point.shift, Point.shift, Point.mk.injEq] at arrived
  obtain ⟨atX, atY⟩ := arrived
  have along := on.along
  rcases s.sideX_eq with right | left <;> rcases s.sideY_eq with down | up <;>
    simp only [*] at atX atY <;> omega

/-- The distance of a point on a walk from the line, measured over the length of the segment, is at
most half a cell along the shorter axis. -/
lemma OnWalk.near_line {i j : Int} (on : OnWalk s k step i j) :
    2 * |(s.stop.y - s.start.y) * (step.point.x - s.start.x) -
      (s.stop.x - s.start.x) * (step.point.y - s.start.y)| ≤ max s.width s.height := by
  have offX : step.point.x - s.start.x = s.sideX * i := by
    rw [on.point, Point.shift]
    ring
  have offY : step.point.y - s.start.y = s.sideY * j := by
    rw [on.point, Point.shift]
    ring
  have wholeX : s.stop.x - s.start.x = s.sideX * s.width := by
    rw [stop_eq s, Point.shift]
    ring
  have wholeY : s.stop.y - s.start.y = s.sideY * s.height := by
    rw [stop_eq s, Point.shift]
    ring
  have sides : |s.sideX * s.sideY| = 1 := by
    rcases s.sideX_eq with right | left <;> rcases s.sideY_eq with down | up <;> simp [*]
  -- up to its sign, the distance from the line is the error less its first value
  have turned : s.sideY * s.height * (s.sideX * i) - s.sideX * s.width * (s.sideY * j) =
      s.sideX * s.sideY * (s.width - s.height - step.error) := by
    rw [on.error]
    ring
  rw [offX, offY, wholeX, wholeY, turned, abs_mul, sides, one_mul]
  have along := on.along
  rcases abs_cases (s.width - s.height - step.error) with ⟨same, -⟩ | ⟨same, -⟩ <;>
    rw [same] <;> omega

/-- The integer `b` is one step after `a` on the way to `target`. -/
def Nearer (target a b : Int) : Prop :=
  a < target ∧ b = a + 1 ∨ target < a ∧ b = a - 1

/-- From `p` to `q` it is one step nearer to the end of the segment along the longer axis, and none
or one step nearer along the other. -/
def StepsTo (s : Segment) (p q : Point) : Prop :=
  (s.height ≤ s.width →
    Nearer s.stop.x p.x q.x ∧ (q.y = p.y ∨ Nearer s.stop.y p.y q.y)) ∧
  (s.width ≤ s.height →
    Nearer s.stop.y p.y q.y ∧ (q.x = p.x ∨ Nearer s.stop.x p.x q.x))

/-- Of two axes of the same length, a walk has gone the same way along both. -/
lemma OnWalk.diagonal {i j : Int} (on : OnWalk s k step i j) (equal : s.width = s.height) :
    i = j := by
  have error := on.error
  have x := on.x
  have y := on.y
  rcases on.along with ⟨-, -, low, high⟩ | ⟨higher, -⟩
  · rw [equal] at error x
    by_contra apart
    have far : s.height ≤ (i - j) * s.height ∨ (i - j) * s.height ≤ -s.height := by
      rcases lt_or_gt_of_ne apart with less | greater
      · right
        nlinarith
      · left
        nlinarith
    rw [sub_mul] at far
    omega
  · omega

/-- Each step of a walk leads nearer to the end of its segment. -/
lemma OnWalk.stepsTo {i j : Int} (on : OnWalk s k step i j)
    (going : k < s.width ∨ k < s.height) : s.StepsTo step.point (s.next step).point := by
  have next := on.next going
  have nearerX : s.across step = 1 → Nearer s.stop.x step.point.x (s.next step).point.x := by
    intro moves
    have room := next.x
    rw [next.point, on.point, stop_eq s]
    simp only [Nearer, Point.shift, moves]
    rcases s.sideX_eq with right | left <;> simp only [*] <;> omega
  have nearerY : s.down step = 1 → Nearer s.stop.y step.point.y (s.next step).point.y := by
    intro moves
    have room := next.y
    rw [next.point, on.point, stop_eq s]
    simp only [Nearer, Point.shift, moves]
    rcases s.sideY_eq with down | up <;> simp only [*] <;> omega
  have besideX : (s.next step).point.x = step.point.x ∨
      Nearer s.stop.x step.point.x (s.next step).point.x := by
    by_cases moves : -s.height ≤ 2 * step.error
    · exact .inr (nearerX (across_of_le moves))
    · left
      simp [next_eq, Point.shift, across, if_neg moves]
  have besideY : (s.next step).point.y = step.point.y ∨
      Nearer s.stop.y step.point.y (s.next step).point.y := by
    by_cases moves : 2 * step.error ≤ s.width
    · exact .inr (nearerY (down_of_le moves))
    · left
      simp [next_eq, Point.shift, down, if_neg moves]
  have along := on.along
  have along' := next.along
  constructor
  · intro wider
    exact ⟨nearerX (by omega), besideY⟩
  · intro higher
    refine ⟨nearerY ?_, besideX⟩
    -- on a diagonal both axes are the longer one
    by_cases equal : s.width = s.height
    · have := on.diagonal equal
      have := next.diagonal equal
      omega
    · omega

/-- The place of a walk after `k` turns of its loop, which here goes on beyond the end. -/
def stepAfter (s : Segment) : (k : Nat) → Step
  | 0 => s.firstStep
  | k + 1 => s.next (s.stepAfter k)

/-- The number of steps of a walk. -/
def steps (s : Segment) : Nat := (max s.width s.height).toNat

/-- Every step of a walk is on it. -/
lemma onWalk_stepAfter (s : Segment) :
    ∀ {k : Nat}, k ≤ s.steps → ∃ i j, OnWalk s k (s.stepAfter k) i j := by
  intro k
  induction k with
  | zero => exact fun _ => ⟨0, 0, onWalk_firstStep s⟩
  | succ k ih =>
    intro le
    obtain ⟨i, j, on⟩ := ih (by omega)
    rw [steps] at le
    exact ⟨_, _, on.next (by omega)⟩

/-- The loop of a walk comes to the end of the segment with its last step, and not before. -/
lemma stepAfter_stop {k : Nat} (le : k ≤ s.steps) :
    (s.stepAfter k).point = s.stop ↔ k = s.steps := by
  obtain ⟨i, j, on⟩ := s.onWalk_stepAfter le
  rw [steps] at le ⊢
  constructor
  · intro arrived
    by_contra early
    exact on.point_ne_stop (by omega) arrived
  · intro last
    exact on.point_eq_stop (by omega) (by omega)

/-- A walk goes through the places of its loop up to the first one at the end of the segment. -/
lemma walkFrom_stepAfter {n : Nat} : ∀ {k : Nat} (passed : List Point), k + n = s.steps →
    s.walkFrom n (s.stepAfter k) passed =
      passed.reverse ++ (List.range' k (n + 1)).map fun k => (s.stepAfter k).point := by
  induction n with
  | zero =>
    intro k passed total
    simp [walkFrom]
  | succ n ih =>
    intro k passed total
    have going : (s.stepAfter k).point ≠ s.stop := by
      rw [Ne, stepAfter_stop (by omega)]
      omega
    have rest := ih (k := k + 1) ((s.stepAfter k).point :: passed) (by omega)
    rw [List.reverse_cons, List.append_assoc] at rest
    rw [walkFrom, if_neg going, List.range'_succ, List.map_cons]
    exact rest

/-- A walk consists of its steps. -/
lemma walk_eq_map (s : Segment) :
    s.walk = (List.range (s.steps + 1)).map fun k => (s.stepAfter k).point := by
  rw [List.range_eq_range']
  exact walkFrom_stepAfter [] (Nat.zero_add _)

/-- A point of a walk is that of one of its steps. -/
lemma mem_walk {p : Point} : p ∈ s.walk ↔ ∃ k ≤ s.steps, (s.stepAfter k).point = p := by
  rw [walk_eq_map, List.mem_map]
  simp only [List.mem_range, Nat.lt_succ_iff]

/-- All points of a walk lie between the ends of its segment. -/
lemma mem_uIcc_of_mem_walk {p : Point} (mem : p ∈ s.walk) :
    p.x ∈ Set.uIcc s.start.x s.stop.x ∧ p.y ∈ Set.uIcc s.start.y s.stop.y := by
  obtain ⟨k, le, rfl⟩ := mem_walk.mp mem
  obtain ⟨i, j, on⟩ := s.onWalk_stepAfter le
  exact on.mem_uIcc

/-- Each step of a walk leads to the next. -/
lemma stepsTo_stepAfter (s : Segment) {k : Nat} (less : k < s.steps) :
    s.StepsTo (s.stepAfter k).point (s.stepAfter (k + 1)).point := by
  obtain ⟨i, j, on⟩ := s.onWalk_stepAfter less.le
  rw [steps] at less
  exact on.stepsTo (by omega)

/-- A walk goes from each of its points to the next. -/
lemma isChain_walk (s : Segment) : s.walk.IsChain s.StepsTo := by
  rw [walk_eq_map, List.isChain_map, List.isChain_range_succ]
  exact fun k less => s.stepsTo_stepAfter less

/-- Along a chain of steps the distance from the end falls, so that no point comes twice. -/
lemma nodup_of_isChain {points : List Point} (chain : points.IsChain s.StepsTo) :
    points.Nodup := by
  let far (p : Point) : Nat :=
    if s.height ≤ s.width then (s.stop.x - p.x).natAbs else (s.stop.y - p.y).natAbs
  have falls : points.IsChain fun p q => far q < far p := by
    refine chain.imp fun p q step => ?_
    simp only [far]
    split
    · next wider =>
      obtain ⟨along, -⟩ := step.1 wider
      rw [Nearer] at along
      omega
    · next higher =>
      obtain ⟨along, -⟩ := step.2 (by omega)
      rw [Nearer] at along
      omega
  have : Trans (fun p q => far q < far p) (fun p q => far q < far p)
      (fun p q => far q < far p) := ⟨fun h h' => Nat.lt_trans h' h⟩
  exact (List.isChain_iff_pairwise.mp falls).imp fun less same => by simp [same] at less

/-- The width is the distance of the first coordinates. -/
lemma width_eq_abs (s : Segment) : s.width = |s.stop.x - s.start.x| := Int.natCast_natAbs _

/-- The height is the distance of the second coordinates. -/
lemma height_eq_abs (s : Segment) : s.height = |s.stop.y - s.start.y| := Int.natCast_natAbs _

end Segment

namespace Checked

open Segment

variable {s : Segment}

/-- The ends of a segment are words, and so are three times its width and its height. -/
structure Walkable (s : Segment) : Prop where
  start : IsWord s.start.x ∧ IsWord s.start.y
  stop : IsWord s.stop.x ∧ IsWord s.stop.y
  width : 3 * s.width < 2 ^ 63
  height : 3 * s.height < 2 ^ 63

/-- An integer between two words is a word. -/
lemma IsWord.of_mem_uIcc {a b n : Int} (ha : IsWord a) (hb : IsWord b) (mem : n ∈ Set.uIcc a b) :
    IsWord n := by
  rw [Set.mem_uIcc] at mem
  rw [isWord_iff] at *
  omega

/-- The points of a walk are words if the ends of its segment are. -/
lemma Walkable.point {k i j : Int} {step : Step} (walkable : Walkable s)
    (on : OnWalk s k step i j) : IsWord step.point.x ∧ IsWord step.point.y :=
  ⟨.of_mem_uIcc walkable.start.1 walkable.stop.1 on.mem_uIcc.1,
    .of_mem_uIcc walkable.start.2 walkable.stop.2 on.mem_uIcc.2⟩

/-- Twice the error is bounded by three times the longer axis, on either side. -/
lemma Walkable.error {k i j : Int} {step : Step} (walkable : Walkable s)
    (on : OnWalk s k step i j) : -2 ^ 63 < 2 * step.error ∧ 2 * step.error < 2 ^ 63 := by
  have width := walkable.width
  have height := walkable.height
  have := s.width_nonneg
  have := s.height_nonneg
  rcases on.along with ⟨wider, -, least, greatest⟩ | ⟨higher, -, least, greatest⟩ <;> omega

/-- A step of a walk before its end is computed in words. -/
lemma next_eq {k i j : Int} {step : Step} (walkable : Walkable s) (on : OnWalk s k step i j)
    (going : k < s.width ∨ k < s.height) :
    next s s.width (-s.height) step = some (s.next step) := by
  -- that the new point is a word follows from where the walk is after the step
  have point := walkable.point (on.next going)
  have error := walkable.error on
  have error' := walkable.error (on.next going)
  have height := walkable.height
  have := s.width_nonneg
  have twice : word (2 * step.error) = some (2 * step.error) := word_eq (by omega) (by omega)
  simp only [isWord_iff] at point
  rw [Checked.next, twice]
  rw [Segment.next] at point error' ⊢
  generalize (if s.start.x < s.stop.x then (1 : Int) else -1) = dx at point ⊢
  generalize (if s.start.y < s.stop.y then (1 : Int) else -1) = dy at point ⊢
  simp only [Option.bind_eq_bind, Option.bind_some, decide_eq_true_eq, Point.shift]
    at point error' ⊢
  by_cases across : -s.height ≤ 2 * step.error <;> by_cases down : 2 * step.error ≤ s.width
  all_goals simp only [across, down, if_true, if_false] at point error' ⊢
  all_goals simp (disch := omega) only [word_eq, Option.pure_def, Option.bind_some, add_zero,
    sub_eq_add_neg, neg_zero]

/-- A walk from any place on it is computed in words. -/
lemma walkFrom_eq {n : Nat} (walkable : Walkable s) :
    ∀ {k i j : Int} {step : Step} (passed : List Point), OnWalk s k step i j →
      k + n = max s.width s.height →
      walkFrom s s.width (-s.height) n step passed = some (s.walkFrom n step passed) := by
  induction n with
  | zero =>
    intro k i j step passed on steps
    have arrived : step.point = s.stop := on.point_eq_stop (by omega) (by omega)
    rw [Checked.walkFrom, Segment.walkFrom, if_pos arrived]
  | succ n ih =>
    intro k i j step passed on steps
    rw [Checked.walkFrom, Segment.walkFrom]
    split
    · rfl
    · rw [next_eq walkable on (by omega), Option.bind_eq_bind, Option.bind_some]
      exact ih (step.point :: passed) (on.next (by omega)) (by omega)

/-- A walk is computed in words. -/
lemma walk_eq (walkable : Walkable s) : walk s = some s.walk := by
  have points := walkFrom_eq (n := (max s.width s.height).toNat) walkable [] (onWalk_firstStep s)
  have hw := s.width_nonneg
  have hh := s.height_nonneg
  have width := walkable.width
  have height := walkable.height
  rw [Segment.walk, ← points (by omega), Checked.walk]
  rw [Segment.width] at hw width
  rw [Segment.height] at hh height
  simp (disch := omega) only [word_eq, Option.bind_eq_bind, Option.bind_some]
  rfl

end Checked

namespace Segment

/-- The loop that walks along a segment is left after as many steps as the longer axis has, and no
earlier: only then it is at the end of the segment. So the walk goes from end to end, with one point
more than there are steps. Each step leads one nearer to the end along the longer axis, and at most
one along the other; no point comes twice, and all are within half a cell of the line. What clipping
leaves of a line is stamped once at each point of its walk. All of this is so in machine words, too,
if the ends of the segment are words, and so are three times its width and its height. -/
theorem walk_line (s : Segment) :
    (∀ k ≤ s.steps, (s.stepAfter k).point = s.stop ↔ k = s.steps) ∧
    s.walk = (List.range (s.steps + 1)).map (fun k => (s.stepAfter k).point) ∧
    (s.walk.length : Int) = max |s.stop.x - s.start.x| |s.stop.y - s.start.y| + 1 ∧
    s.walk.head? = some s.start ∧ s.walk.getLast? = some s.stop ∧
    s.walk.IsChain s.StepsTo ∧ s.walk.Nodup ∧
    (∀ p ∈ s.walk,
      2 * |(s.stop.y - s.start.y) * (p.x - s.start.x) -
        (s.stop.x - s.start.x) * (p.y - s.start.y)| ≤
      max |s.stop.x - s.start.x| |s.stop.y - s.start.y|) ∧
    (∀ (c : Canvas) (line : Segment) (color : Color) (brush : Int),
      line.clip? Float (reachFirst (brushRadius brush)) (reachLast c.size (brushRadius brush)) =
        some s →
      c.drawLine line color brush = s.walk.foldl (fun c p => c.stamp p color brush) c) ∧
    (Checked.Walkable s → Checked.walk s = some s.walk) := by
  have width := s.width_nonneg
  have height := s.height_nonneg
  rw [← width_eq_abs, ← height_eq_abs]
  refine ⟨fun k le => stepAfter_stop le, s.walk_eq_map, ?_, ?_, ?_, s.isChain_walk,
    nodup_of_isChain s.isChain_walk, ?_, ?_, Checked.walk_eq⟩
  · rw [walk_eq_map, List.length_map, List.length_range, steps]
    omega
  · rw [walk_eq_map, List.range_succ_eq_map, List.map_cons, List.head?_cons]
    rfl
  · rw [walk_eq_map, List.range_succ, List.map_append, List.map_singleton, List.getLast?_concat,
      (stepAfter_stop (le_refl _)).mpr rfl]
  · intro p mem
    obtain ⟨k, le, rfl⟩ := mem_walk.mp mem
    obtain ⟨i, j, on⟩ := s.onWalk_stepAfter le
    exact on.near_line
  · intro c line color brush clipped
    rw [Canvas.drawLine, Canvas.drawLineIn, Canvas.lineCentres, clipped]
    rfl

/-- A walk of nearly three quintillions of cells. -/
theorem walk_line_long :
    let s : Segment := ⟨⟨-3000000000000000000, 9⟩, ⟨0, -2000000000000000000⟩⟩
    Checked.Walkable s ∧ Checked.walk s = some s.walk ∧
      (s.walk.length : Int) = 3000000000000000001 := by
  intro s
  have walkable : Checked.Walkable s := ⟨by decide, by decide, by decide, by decide⟩
  obtain ⟨-, -, length, -, -, -, -, -, -, words⟩ := walk_line s
  exact ⟨walkable, words walkable, length⟩

end Segment

end Easel
