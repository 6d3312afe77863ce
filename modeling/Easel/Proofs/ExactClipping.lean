import Easel.Proofs.Clipping

/-!
# Clipping in exact numbers

In rationals, clipping makes no errors. Each cut leaves just the parameters on the inner side of its
edge (`Leaves.cut?`), so that what is left in the end is the part of the segment in the square
(`Segment.leaves_stretch?`): it goes from the first parameter inside to the last one.
-/

namespace Easel

/-- The integer nearest to a rational; a half goes away from zero. -/
def nearestInt (q : ℚ) : ℤ := if 0 ≤ q then ⌊q + 1 / 2⌋ else ⌈q - 1 / 2⌉

instance : Scalar ℚ where
  ofInt n := n
  round := nearestInt
  decideLT := inferInstance

/-- The integer nearest to an integer is itself. -/
lemma nearestInt_intCast (n : ℤ) : nearestInt n = n := by
  rw [nearestInt]
  split
  · rw [Int.floor_intCast_add]
    norm_num
  · rw [sub_eq_add_neg, Int.ceil_intCast_add]
    norm_num

/-- A cut in rationals moves the beginning up or the end down, if anything is left then. -/
lemma Stretch.cut?_eq (st : Stretch ℚ) (p q : ℚ) :
    st.cut? p q =
      if p < 0 then
        if st.leave < q / p then none else some ⟨max st.enter (q / p), st.leave⟩
      else if 0 < p then
        if q / p < st.enter then none else some ⟨st.enter, min (q / p) st.leave⟩
      else if q < 0 then none
      else some st := by
  have zero : (Scalar.ofInt 0 : ℚ) = 0 := Int.cast_zero
  simp only [Stretch.cut?, zero, max_def_lt, min_def_lt]

/-- The parameters that cutting leaves are those with a property. -/
inductive Leaves : Option (Stretch ℚ) → (ℚ → Prop) → Prop where
  | empty {P} :
    (∀ t, ¬ P t) →
    Leaves none P
  | stretch {st P} :
    st.enter ≤ st.leave →
    (∀ t, P t ↔ st.enter ≤ t ∧ t ≤ st.leave) →
    Leaves (some st) P

namespace Leaves

variable {st : Stretch ℚ} {o : Option (Stretch ℚ)} {P Q : ℚ → Prop} {p q : ℚ}

/-- Cutting at an edge over which the segment comes in. -/
lemma cut?_of_neg (le : st.enter ≤ st.leave) (mem : ∀ t, P t ↔ st.enter ≤ t ∧ t ≤ st.leave)
    (negative : p < 0) : Leaves (st.cut? p q) fun t => P t ∧ p * t ≤ q := by
  have inner (t : ℚ) : p * t ≤ q ↔ q / p ≤ t := (div_le_iff_of_neg' negative).symm
  simp only [Stretch.cut?_eq, if_pos negative, inner, mem]
  split
  · next beyond => exact .empty fun t within => (beyond.trans_le within.2).not_ge within.1.2
  · next reached =>
    refine .stretch (max_le le (not_lt.mp reached)) fun t => ?_
    rw [max_le_iff, and_right_comm]

/-- Cutting at an edge over which the segment goes out. -/
lemma cut?_of_pos (le : st.enter ≤ st.leave) (mem : ∀ t, P t ↔ st.enter ≤ t ∧ t ≤ st.leave)
    (positive : 0 < p) : Leaves (st.cut? p q) fun t => P t ∧ p * t ≤ q := by
  have inner (t : ℚ) : p * t ≤ q ↔ t ≤ q / p := (le_div_iff₀' positive).symm
  simp only [Stretch.cut?_eq, if_neg positive.not_gt, if_pos positive, inner, mem]
  split
  · next before => exact .empty fun t within => (within.2.trans_lt before).not_ge within.1.1
  · next reached =>
    refine .stretch (le_min (not_lt.mp reached) le) fun t => ?_
    rw [le_min_iff, and_assoc, and_comm (a := t ≤ q / p)]

/-- Cutting at an edge along which the segment runs. -/
lemma cut?_of_zero (le : st.enter ≤ st.leave) (mem : ∀ t, P t ↔ st.enter ≤ t ∧ t ≤ st.leave) :
    Leaves (st.cut? 0 q) fun t => P t ∧ 0 * t ≤ q := by
  simp only [Stretch.cut?_eq, lt_irrefl, if_false, zero_mul]
  split
  · next outside => exact .empty fun t within => outside.not_ge within.2
  · next inside => exact .stretch le fun t => (and_iff_left (not_lt.mp inside)).trans (mem t)

/-- A cut leaves the parameters on the inner side of its edge. -/
lemma cut? (leaves : Leaves (some st) P) (p q : ℚ) :
    Leaves (st.cut? p q) fun t => P t ∧ p * t ≤ q := by
  cases leaves with
  | stretch le mem =>
    -- the segment comes in over the edge, goes along it or goes out over it
    rcases lt_trichotomy p 0 with negative | rfl | positive
    · exact cut?_of_neg le mem negative
    · exact cut?_of_zero le mem
    · exact cut?_of_pos le mem positive

/-- What is left after one cut is cut again. -/
lemma bind {f : Stretch ℚ → Option (Stretch ℚ)} (leaves : Leaves o P)
    (next : ∀ st, Leaves (some st) P → Leaves (f st) fun t => P t ∧ Q t) :
    Leaves (o >>= f) fun t => P t ∧ Q t := by
  cases leaves with
  | empty never => exact .empty fun t both => never t both.1
  | stretch le mem => exact next _ (.stretch le mem)

/-- What is left is the same if the same parameters are on the inner side. -/
lemma congr (leaves : Leaves o P) (same : ∀ t, P t ↔ Q t) : Leaves o Q := by
  cases leaves with
  | empty never => exact .empty fun t holds => never t ((same t).mpr holds)
  | stretch le mem => exact .stretch le fun t => (same t).symm.trans (mem t)

end Leaves

namespace Segment

variable {s : Segment} {first last : ℤ}

/-- What is left of a segment is its part in the square. -/
lemma leaves_stretch? (s : Segment) (first last : ℤ) :
    Leaves (s.stretch? ℚ first last) fun t => (0 ≤ t ∧ t ≤ 1) ∧ s.Inside first last t := by
  have whole : Leaves (some Stretch.whole) fun t => 0 ≤ t ∧ t ≤ 1 :=
    .stretch zero_le_one fun t => by simp only [Stretch.whole, Scalar.ofInt]; norm_num
  have one := whole.cut? (-(s.stop.x - s.start.x : ℤ)) (s.start.x - first)
  have two := one.bind fun st leaves => leaves.cut? (s.stop.x - s.start.x : ℤ) (last - s.start.x)
  have three := two.bind fun st leaves =>
    leaves.cut? (-(s.stop.y - s.start.y : ℤ)) (s.start.y - first)
  have four := three.bind fun st leaves =>
    leaves.cut? (s.stop.y - s.start.y : ℤ) (last - s.start.y)
  simp only [bind_assoc] at four
  refine four.congr fun t => ?_
  simp only [Inside, xAt, yAt]
  constructor
  · rintro ⟨⟨⟨⟨bounds, left⟩, right⟩, above⟩, below⟩
    exact ⟨bounds, ⟨by linarith, by linarith⟩, by linarith, by linarith⟩
  · rintro ⟨bounds, ⟨left, right⟩, above, below⟩
    exact ⟨⟨⟨⟨bounds, by linarith⟩, by linarith⟩, by linarith⟩, by linarith⟩

/-- The cell at a parameter where the segment passes a point of the square is that point. -/
lemma cellAt_of_eq {t : ℚ} {p : Point} (x : s.xAt t = p.x) (y : s.yAt t = p.y)
    (inside : s.Inside first last t) : s.cellAt ℚ first last t = p := by
  rw [Inside, x, y] at inside
  norm_cast at inside
  change (⟨clamp first last (nearestInt (s.xAt t)), clamp first last (nearestInt (s.yAt t))⟩ :
    Point) = p
  rw [x, y, nearestInt_intCast, nearestInt_intCast, clamp, clamp]
  obtain ⟨px, py⟩ := p
  simp only [Point.mk.injEq] at inside ⊢
  omega

/-- The cell of the first point is the first end. -/
lemma cellAt_zero (inside : s.Inside first last 0) : s.cellAt ℚ first last 0 = s.start :=
  cellAt_of_eq (by simp [xAt]) (by simp [yAt]) inside

/-- The cell of the last point is the last end. -/
lemma cellAt_one (inside : s.Inside first last 1) : s.cellAt ℚ first last 1 = s.stop :=
  cellAt_of_eq (by simp [xAt]) (by simp [yAt]) inside

/-- Clipping leaves the cells at the first and at the last parameter inside the square. An end that
is not cut off is such a cell, too. -/
lemma clip?_cases (s : Segment) (first last : ℤ) :
    (s.clip? ℚ first last = none ∧ ∀ t, 0 ≤ t → t ≤ 1 → ¬ s.Inside first last t) ∨
    ∃ a b, a ≤ b ∧ (∀ t, (0 ≤ t ∧ t ≤ 1) ∧ s.Inside first last t ↔ a ≤ t ∧ t ≤ b) ∧
      s.clip? ℚ first last =
        some ⟨s.cellAt ℚ first last a, s.cellAt ℚ first last b⟩ := by
  rw [clip?]
  split
  · next empty =>
    refine .inl ⟨rfl, fun t _ _ inside => ?_⟩
    have : (first : ℚ) ≤ last := inside.1.1.trans inside.1.2
    exact empty.not_ge (by exact_mod_cast this)
  · have leaves := s.leaves_stretch? first last
    generalize s.stretch? ℚ first last = o at leaves
    cases leaves with
    | empty never => exact .inl ⟨rfl, fun t nonneg le inside => never t ⟨⟨nonneg, le⟩, inside⟩⟩
    | @stretch st _ le mem =>
      obtain ⟨⟨nonneg, -⟩, inside⟩ := (mem _).mpr ⟨le_rfl, le⟩
      obtain ⟨⟨-, le_one⟩, inside'⟩ := (mem _).mpr ⟨le, le_rfl⟩
      refine .inr ⟨st.enter, st.leave, le, mem, ?_⟩
      -- an end that is not cut off is the cell at its parameter as well
      have start : (if Scalar.ofInt 0 < st.enter then s.cellAt ℚ first last st.enter
          else s.start) = s.cellAt ℚ first last st.enter := by
        split
        · rfl
        · next uncut =>
          have zero : st.enter = 0 := le_antisymm (not_lt.mp uncut) nonneg
          rw [zero] at inside ⊢
          exact (cellAt_zero inside).symm
      have stop : (if st.leave < Scalar.ofInt 1 then s.cellAt ℚ first last st.leave
          else s.stop) = s.cellAt ℚ first last st.leave := by
        split
        · rfl
        · next uncut =>
          have one : st.leave = 1 := le_antisymm le_one (not_lt.mp uncut)
          rw [one] at inside' ⊢
          exact (cellAt_one inside').symm
      rw [Option.map_some, start, stop]

end Segment

end Easel
