import Easel.Proofs.Doubles
import Easel.Segment

/-!
# Clipping in doubles

Where a segment crosses the edges of a square is computed in doubles, and so rounded. Rounding keeps
the order of numbers, so a part of the segment inside the square is never lost: what is left is
exactly what is on the inner side of all the rounded crossings (`Segment.covers_stretch?`).

The ends of what is left are cells. An end that is cut off is on an edge, and nearest to the line
there; the other ends stay as they are (`Segment.clipped_of_clip?`). Nothing is left only of a
segment that does not pass the square (`Segment.not_inside_of_clip?`).
-/

namespace Easel

open Number

/-- An edge of a square as a segment meets it: the point at the parameter `t` is on the inner side
if `slope * t ≤ room`. -/
structure Edge where
  slope : ℤ
  room : ℤ

namespace Edge

/-- The parameter at which a segment crosses the edge, as it is computed. -/
def crossing (e : Edge) : ℚ := rounded (e.room / e.slope)

/-- A parameter is on the inner side of the edge, as far as is computed. -/
structure Fits (e : Edge) (c : ℚ) : Prop where
  entered : e.slope < 0 → e.crossing ≤ c
  staying : 0 < e.slope → c ≤ e.crossing
  level : e.slope = 0 → 0 ≤ e.room

variable {e : Edge} {c : ℚ}

/-- Where a segment comes in over an edge, what fits comes after the crossing. -/
lemma fits_of_neg (negative : e.slope < 0) : e.Fits c ↔ e.crossing ≤ c :=
  ⟨fun fits => fits.entered negative, fun le => ⟨fun _ => le, by omega, by omega⟩⟩

/-- Where a segment goes out over an edge, what fits comes before the crossing. -/
lemma fits_of_pos (positive : 0 < e.slope) : e.Fits c ↔ c ≤ e.crossing :=
  ⟨fun fits => fits.staying positive, fun le => ⟨by omega, fun _ => le, by omega⟩⟩

/-- A segment that runs along an edge fits as a whole or not at all. -/
lemma fits_of_zero (zero : e.slope = 0) : e.Fits c ↔ 0 ≤ e.room :=
  ⟨fun fits => fits.level zero, fun le => ⟨by omega, by omega, fun _ => le⟩⟩

/-- What is inside fits, when it is rounded as the crossing is. -/
lemma fits_of_le (inside : e.slope * c ≤ e.room) : e.Fits (rounded c) where
  entered negative := by
    have slope : (e.slope : ℚ) < 0 := by exact_mod_cast negative
    refine rounded_mono ?_
    rw [div_le_iff_of_neg slope]
    linarith
  staying positive := by
    have slope : (0 : ℚ) < e.slope := by exact_mod_cast positive
    refine rounded_mono ?_
    rw [le_div_iff₀ slope]
    linarith
  level zero := by
    rw [zero, Int.cast_zero, zero_mul] at inside
    exact_mod_cast inside

/-- A bound for the errors of rounding, which add up to less. -/
def slack : ℚ := 1 / 2 ^ 16

/-- Rounding does not exceed one. -/
lemma rounded_le_one {q : ℚ} (le : q ≤ 1) : rounded q ≤ 1 := by
  rw [← rounded_one]
  exact rounded_mono le

/-- Two is not rounded. -/
lemma rounded_two : rounded 2 = 2 := by
  exact_mod_cast rounded_int (n := 2) (by norm_num)

/-- A number that is rounded to one between zero and one is rounded with a small error. -/
lemma rounded_near_unit {q : ℚ} (nonneg : 0 ≤ rounded q) (le : rounded q ≤ 1) :
    |rounded q - q| ≤ 2 ^ (-53 : ℤ) := by
  have low : -2 < q := by
    by_contra below
    have := rounded_mono (not_lt.mp below)
    rw [rounded_neg, rounded_two] at this
    linarith
  have high : q < 2 := by
    by_contra above
    have := rounded_mono (not_lt.mp above)
    rw [rounded_two] at this
    linarith
  exact rounded_near_of_lt (k := 1) (by rw [zpow_one, abs_lt]; exact ⟨low, high⟩) le_rfl

/-- At the exact crossing there is no room left. -/
lemma slope_mul_crossing (nonzero : e.slope ≠ 0) : (e.slope : ℚ) * (e.room / e.slope) = e.room :=
  mul_div_cancel₀ _ (by exact_mod_cast nonzero)

/-- At a crossing within the segment, the point is on the edge up to the errors of rounding. -/
lemma crossing_near (nonzero : e.slope ≠ 0) (slope : |e.slope| ≤ 2 ^ 32) (nonneg : 0 ≤ e.crossing)
    (le : e.crossing ≤ 1) : |e.slope * e.crossing - e.room| ≤ slack := by
  have off := rounded_near_unit nonneg le
  have slope' : |(e.slope : ℚ)| ≤ 2 ^ 32 := by exact_mod_cast slope
  calc |e.slope * e.crossing - e.room| = |(e.slope : ℚ)| * |e.crossing - e.room / e.slope| := by
        rw [← abs_mul, mul_sub, slope_mul_crossing nonzero]
    _ ≤ 2 ^ 32 * 2 ^ (-53 : ℤ) := by
      gcongr
      exact off
    _ ≤ slack := by norm_num [slack]

/-- What fits is inside up to the errors of rounding. -/
lemma Fits.near (fits : e.Fits c) (nonneg : 0 ≤ c) (le : c ≤ 1) (slope : |e.slope| ≤ 2 ^ 32) :
    e.slope * c ≤ e.room + slack := by
  have positive : 0 < slack := by norm_num [slack]
  -- a crossing before the first point or after the last one does not bound anything
  rcases lt_trichotomy e.slope 0 with negative | zero | upward
  · have slope' : (e.slope : ℚ) < 0 := by exact_mod_cast negative
    have crossed := fits.entered negative
    rcases le_or_gt 0 (e.room : ℚ) with inside | outside
    · linarith [mul_nonpos_of_nonpos_of_nonneg slope'.le nonneg]
    · have within : 0 ≤ e.crossing := rounded_nonneg (div_nonneg_of_nonpos outside.le slope'.le)
      have near := abs_le.mp (crossing_near negative.ne slope within (crossed.trans le))
      have : e.slope * c ≤ e.slope * e.crossing := mul_le_mul_of_nonpos_left crossed slope'.le
      linarith
  · rw [zero, Int.cast_zero, zero_mul]
    have : (0 : ℚ) ≤ e.room := by exact_mod_cast fits.level zero
    linarith
  · have slope' : (0 : ℚ) < e.slope := by exact_mod_cast upward
    have staying := fits.staying upward
    rcases le_or_gt (e.slope : ℚ) e.room with inside | outside
    · linarith [mul_le_of_le_one_right slope'.le le]
    · have within : e.crossing ≤ 1 := rounded_le_one ((div_le_one slope').mpr outside.le)
      have near := abs_le.mp (crossing_near upward.ne' slope (nonneg.trans staying) within)
      have : e.slope * c ≤ e.slope * e.crossing := mul_le_mul_of_nonneg_left staying slope'.le
      linarith

/-- Nothing fits an edge if both ends are on the outer side. -/
lemma not_fits (start : e.room < 0) (stop : e.room < e.slope) (slope : |e.slope| ≤ 2 ^ 32)
    (nonneg : 0 ≤ c) (le : c ≤ 1) : ¬ e.Fits c := by
  intro fits
  have near := fits.near nonneg le slope
  have small : slack < 1 := by norm_num [slack]
  have start' : (e.room : ℚ) + 1 ≤ 0 := by exact_mod_cast start
  have stop' : (e.room : ℚ) + 1 ≤ e.slope := by exact_mod_cast stop
  -- the least value of the left side is at one of the ends
  rcases le_or_gt 0 (e.slope : ℚ) with upward | downward
  · linarith [mul_nonneg upward nonneg]
  · linarith [mul_le_mul_of_nonpos_left le downward.le]

/-- The crossing as a double. -/
lemma is_crossing {p q : Float} (hp : Is p e.slope) (hq : Is q e.room) (nonzero : e.slope ≠ 0)
    (slope : |e.slope| ≤ 2 ^ 40) (room : |e.room| < 2 ^ 53) : Is (q / p) e.crossing := by
  have positive : (0 : ℚ) < |(e.slope : ℚ)| := by positivity
  have one : (1 : ℚ) ≤ |(e.slope : ℚ)| := by exact_mod_cast Int.one_le_abs nonzero
  have slope' : |(e.slope : ℚ)| ≤ 2 ^ 40 := by exact_mod_cast slope
  have room' : |(e.room : ℚ)| < 2 ^ 53 := by exact_mod_cast room
  refine is_div hq hp (by exact_mod_cast nonzero) ?_ ?_
  · rcases eq_or_ne e.room 0 with none | some
    · left
      exact_mod_cast none
    · right
      have : (1 : ℚ) ≤ |(e.room : ℚ)| := by exact_mod_cast Int.one_le_abs some
      rw [abs_div, le_div_iff₀ positive]
      calc (2 : ℚ) ^ (-1074 : ℤ) * |(e.slope : ℚ)| ≤ 2 ^ (-40 : ℤ) * 2 ^ 40 := by
            gcongr
            · norm_num
            · norm_num
        _ ≤ |(e.room : ℚ)| := by
          norm_num
          linarith
  · rw [abs_div, div_lt_iff₀ positive]
    calc |(e.room : ℚ)| < 2 ^ 53 := room'
      _ ≤ 2 ^ 1022 * 1 := by
        rw [mul_one]
        exact pow_le_pow_right₀ (by norm_num) (by norm_num)
      _ ≤ 2 ^ 1022 * |(e.slope : ℚ)| := by gcongr

end Edge

/-- A stretch of a segment consists of the parameters that fit some edges, and ends at the ends of
the segment or at crossings. -/
structure Stretch.Holds (edges : List Edge) (st : Stretch Float) (a b : ℚ) : Prop where
  enter : Is st.enter a
  leave : Is st.leave b
  le : a ≤ b
  mem : ∀ c, a ≤ c ∧ c ≤ b ↔ (0 ≤ c ∧ c ≤ 1) ∧ ∀ e ∈ edges, e.Fits c
  first : a = 0 ∨ ∃ e ∈ edges, e.slope < 0 ∧ a = e.crossing
  last : b = 1 ∨ ∃ e ∈ edges, 0 < e.slope ∧ b = e.crossing

/-- What is left of a segment after cutting: a stretch, or nothing if no parameter fits. -/
def Covers (edges : List Edge) : Option (Stretch Float) → Prop
  | none => ∀ c, 0 ≤ c → c ≤ 1 → ¬ ∀ e ∈ edges, e.Fits c
  | some st => ∃ a b, st.Holds edges a b

namespace Stretch.Holds

variable {edges : List Edge} {e : Edge} {st : Stretch Float} {a b : ℚ} {p q t : Float}

/-- A stretch does not begin before the segment does. -/
lemma nonneg (holds : st.Holds edges a b) : 0 ≤ a := ((holds.mem a).mp ⟨le_rfl, holds.le⟩).1.1

/-- A stretch does not end after the segment does. -/
lemma le_one (holds : st.Holds edges a b) : b ≤ 1 := ((holds.mem b).mp ⟨holds.le, le_rfl⟩).1.2

/-- What fits one edge more fits the others and that edge. -/
lemma forall_mem_concat {c : ℚ} :
    (∀ e' ∈ edges ++ [e], e'.Fits c) ↔ (∀ e' ∈ edges, e'.Fits c) ∧ e.Fits c := by
  rw [List.forall_mem_append, List.forall_mem_singleton]

/-- Where a stretch begins is still known with one edge more. -/
lemma first_concat (holds : st.Holds edges a b) (e : Edge) :
    a = 0 ∨ ∃ e' ∈ edges ++ [e], e'.slope < 0 ∧ a = e'.crossing := by
  obtain zero | ⟨e', mem, rest⟩ := holds.first
  exacts [.inl zero, .inr ⟨e', List.mem_append_left _ mem, rest⟩]

/-- Where a stretch ends is still known with one edge more. -/
lemma last_concat (holds : st.Holds edges a b) (e : Edge) :
    b = 1 ∨ ∃ e' ∈ edges ++ [e], 0 < e'.slope ∧ b = e'.crossing := by
  obtain one | ⟨e', mem, rest⟩ := holds.last
  exacts [.inl one, .inr ⟨e', List.mem_append_left _ mem, rest⟩]

/-- An edge that all parameters fit does not change a stretch. -/
lemma concat (holds : st.Holds edges a b) (fits : ∀ c, a ≤ c → c ≤ b → e.Fits c) :
    st.Holds (edges ++ [e]) a b where
  enter := holds.enter
  leave := holds.leave
  le := holds.le
  mem c := by
    rw [forall_mem_concat, ← and_assoc, ← holds.mem c]
    exact ⟨fun within => ⟨within, fits c within.1 within.2⟩, And.left⟩
  first := holds.first_concat e
  last := holds.last_concat e

/-- A stretch begins where the segment comes in over an edge, if that is within it. -/
lemma enterAt (holds : st.Holds edges a b) (negative : e.slope < 0) (ht : Is t e.crossing)
    (later : a ≤ e.crossing) (le : e.crossing ≤ b) :
    Stretch.Holds (edges ++ [e]) { st with enter := t } e.crossing b where
  enter := ht
  leave := holds.leave
  le := le
  mem c := by
    rw [forall_mem_concat, Edge.fits_of_neg negative, ← and_assoc, ← holds.mem c]
    exact ⟨fun within => ⟨⟨later.trans within.1, within.2⟩, within.1⟩,
      fun within => ⟨within.2, within.1.2⟩⟩
  first := .inr ⟨e, by simp, negative, rfl⟩
  last := holds.last_concat e

/-- A stretch ends where the segment goes out over an edge, if that is within it. -/
lemma leaveAt (holds : st.Holds edges a b) (positive : 0 < e.slope) (ht : Is t e.crossing)
    (earlier : e.crossing ≤ b) (le : a ≤ e.crossing) :
    Stretch.Holds (edges ++ [e]) { st with leave := t } a e.crossing where
  enter := holds.enter
  leave := ht
  le := le
  mem c := by
    rw [forall_mem_concat, Edge.fits_of_pos positive, ← and_assoc, ← holds.mem c]
    exact ⟨fun within => ⟨⟨within.1, within.2.trans earlier⟩, within.2⟩,
      fun within => ⟨within.1.1, within.2⟩⟩
  first := holds.first_concat e
  last := .inr ⟨e, by simp, positive, rfl⟩

/-- The double of zero is zero. -/
lemma is_zero : Is (Scalar.ofInt 0 : Float) 0 := by
  exact_mod_cast is_ofInt (n := 0) (by norm_num)

/-- The double of one is one. -/
lemma is_unit : Is (Scalar.ofInt 1 : Float) 1 := by
  exact_mod_cast is_ofInt (n := 1) (by norm_num)

/-- Zero is neither less than zero nor greater. -/
lemma not_lt_zero (hp : Is p 0) : ¬ p < Scalar.ofInt 0 ∧ ¬ Scalar.ofInt 0 < p :=
  ⟨mt (lt_iff hp is_zero).mp (lt_irrefl _), mt (lt_iff is_zero hp).mp (lt_irrefl _)⟩

/-- Cutting at an edge over which the segment comes in. -/
lemma cut?_of_neg (holds : st.Holds edges a b) (hp : Is p e.slope) (negative : e.slope < 0)
    (ht : Is (q / p) e.crossing) : Covers (edges ++ [e]) (st.cut? p q) := by
  rw [Stretch.cut?, if_pos ((lt_iff hp is_zero).mpr (by exact_mod_cast negative))]
  dsimp only
  by_cases beyond : b < e.crossing
  · rw [if_pos ((lt_iff holds.leave ht).mpr beyond)]
    intro c nonneg le fits
    rw [forall_mem_concat, Edge.fits_of_neg negative] at fits
    have within := ((holds.mem c).mpr ⟨⟨nonneg, le⟩, fits.1⟩).2
    linarith [fits.2]
  · rw [if_neg (mt (lt_iff holds.leave ht).mp beyond)]
    by_cases later : a < e.crossing
    · rw [if_pos ((lt_iff holds.enter ht).mpr later)]
      exact ⟨_, _, holds.enterAt negative ht later.le (not_lt.mp beyond)⟩
    · rw [if_neg (mt (lt_iff holds.enter ht).mp later)]
      exact ⟨a, b, holds.concat fun c within _ =>
        (Edge.fits_of_neg negative).mpr ((not_lt.mp later).trans within)⟩

/-- Cutting at an edge over which the segment goes out. -/
lemma cut?_of_pos (holds : st.Holds edges a b) (hp : Is p e.slope) (positive : 0 < e.slope)
    (ht : Is (q / p) e.crossing) : Covers (edges ++ [e]) (st.cut? p q) := by
  rw [Stretch.cut?, if_neg (mt (lt_iff hp is_zero).mp (by exact_mod_cast positive.not_gt)),
    if_pos ((lt_iff is_zero hp).mpr (by exact_mod_cast positive))]
  dsimp only
  by_cases beyond : e.crossing < a
  · rw [if_pos ((lt_iff ht holds.enter).mpr beyond)]
    intro c nonneg le fits
    rw [forall_mem_concat, Edge.fits_of_pos positive] at fits
    have within := ((holds.mem c).mpr ⟨⟨nonneg, le⟩, fits.1⟩).1
    linarith [fits.2]
  · rw [if_neg (mt (lt_iff ht holds.enter).mp beyond)]
    by_cases earlier : e.crossing < b
    · rw [if_pos ((lt_iff ht holds.leave).mpr earlier)]
      exact ⟨_, _, holds.leaveAt positive ht earlier.le (not_lt.mp beyond)⟩
    · rw [if_neg (mt (lt_iff ht holds.leave).mp earlier)]
      exact ⟨a, b, holds.concat fun c _ within =>
        (Edge.fits_of_pos positive).mpr (within.trans (not_lt.mp earlier))⟩

/-- Cutting at an edge along which the segment runs. -/
lemma cut?_of_zero (holds : st.Holds edges a b) (hp : Is p e.slope) (zero : e.slope = 0)
    (hq : Is q e.room) : Covers (edges ++ [e]) (st.cut? p q) := by
  rw [zero, Int.cast_zero] at hp
  have level := not_lt_zero hp
  rw [Stretch.cut?, if_neg level.1, if_neg level.2]
  by_cases outside : e.room < 0
  · rw [if_pos ((lt_iff hq is_zero).mpr (by exact_mod_cast outside))]
    intro c nonneg le fits
    rw [forall_mem_concat, Edge.fits_of_zero zero] at fits
    omega
  · rw [if_neg (mt (lt_iff hq is_zero).mp (by exact_mod_cast outside))]
    exact ⟨a, b, holds.concat fun c _ _ => (Edge.fits_of_zero zero).mpr (not_lt.mp outside)⟩

/-- Cutting at an edge leaves what fits it, too. -/
lemma cut? (holds : st.Holds edges a b) (hp : Is p e.slope) (hq : Is q e.room)
    (slope : |e.slope| ≤ 2 ^ 40) (room : |e.room| < 2 ^ 53) :
    Covers (edges ++ [e]) (st.cut? p q) := by
  -- the segment comes in over the edge, goes along it or goes out over it
  rcases lt_trichotomy e.slope 0 with negative | zero | positive
  · exact holds.cut?_of_neg hp negative (Edge.is_crossing hp hq negative.ne slope room)
  · exact holds.cut?_of_zero hp zero hq
  · exact holds.cut?_of_pos hp positive (Edge.is_crossing hp hq positive.ne' slope room)

/-- An edge that is too far away for any segment to get there does not cut. -/
lemma cut?_far (holds : st.Holds edges a b) (hp : Is p e.slope) (hq : AtLeast (2 ^ 49) q)
    (slope : |e.slope| ≤ 2 ^ 40) (room : 2 ^ 49 ≤ e.room) :
    Covers (edges ++ [e]) (st.cut? p q) := by
  have nonneg := holds.nonneg
  have le_one := holds.le_one
  have le := holds.le
  have slope' := abs_le.mp slope
  have room' : (2 : ℚ) ^ 49 ≤ e.room := by exact_mod_cast room
  suffices stays : st.cut? p q = some st ∧ ∀ c, a ≤ c → c ≤ b → e.Fits c by
    rw [stays.1]
    exact ⟨a, b, holds.concat stays.2⟩
  -- the edge is crossed before the start or after the end
  rcases lt_trichotomy e.slope 0 with negative | zero | positive
  · have slope : (e.slope : ℚ) < 0 := by exact_mod_cast negative
    have t := hq.div_neg hp slope (by exact_mod_cast slope'.1)
    refine ⟨?_, fun c low high => (Edge.fits_of_neg negative).mpr ?_⟩
    · rw [Stretch.cut?, if_pos ((lt_iff hp is_zero).mpr slope)]
      dsimp only
      rw [if_neg (t.not_lt holds.leave (by linarith)), if_neg (t.not_lt holds.enter (by linarith))]
    · have : e.crossing ≤ rounded 0 := by
        refine rounded_mono (div_nonpos_of_nonneg_of_nonpos ?_ slope.le)
        linarith
      rw [rounded_zero] at this
      linarith
  · rw [zero, Int.cast_zero] at hp
    have level := not_lt_zero hp
    refine ⟨?_, fun c _ _ => (Edge.fits_of_zero zero).mpr (by omega)⟩
    rw [Stretch.cut?, if_neg level.1, if_neg level.2, if_neg (hq.not_lt is_zero (by norm_num))]
  · have slope : (0 : ℚ) < e.slope := by exact_mod_cast positive
    have t := hq.div hp slope (by exact_mod_cast slope'.2)
    refine ⟨?_, fun c low high => (Edge.fits_of_pos positive).mpr ?_⟩
    · rw [Stretch.cut?, if_neg (mt (lt_iff hp is_zero).mp slope.not_gt),
        if_pos ((lt_iff is_zero hp).mpr slope)]
      dsimp only
      rw [if_neg (t.not_lt holds.enter (by linarith)), if_neg (t.not_lt holds.leave (by linarith))]
    · have : rounded ((1 : ℤ) : ℚ) ≤ e.crossing := by
        refine rounded_mono ?_
        rw [le_div_iff₀ slope]
        have : (e.slope : ℚ) ≤ 2 ^ 40 := by exact_mod_cast slope'.2
        push_cast
        linarith
      rw [rounded_int (by norm_num)] at this
      push_cast at this
      linarith

/-- Small integers are subtracted without rounding. -/
lemma is_difference {x y : Float} {m n : ℤ} (hx : Is x m) (hy : Is y n) (small : |m - n| < 2 ^ 53) :
    Is (x - y) (m - n : ℤ) := by
  have size : |(m : ℚ) - n| < 2 ^ 1022 := by
    calc |(m : ℚ) - n| = (|m - n| : ℤ) := by push_cast; rfl
      _ < 2 ^ 53 := by exact_mod_cast small
      _ ≤ 2 ^ 1022 := pow_le_pow_right₀ (by norm_num) (by norm_num)
  have rest := is_sub hx hy size
  rwa [← Int.cast_sub, rounded_int small] at rest

/-- Cutting at the edge with the least coordinate. -/
lemma cut?_first {d x first : ℤ} (holds : st.Holds edges a b) (hd : |d| ≤ 2 ^ 32)
    (hx : |x| ≤ 2 ^ 31) (hf : |first| ≤ 2 ^ 31) :
    Covers (edges ++ [⟨-d, x - first⟩])
      (st.cut? (-Scalar.ofInt d) (Scalar.ofInt x - Scalar.ofInt first)) := by
  rw [abs_le] at hd hx hf
  refine holds.cut? ?_ (is_difference (is_ofInt ?_) (is_ofInt ?_) ?_) ?_ ?_
  · rw [Int.cast_neg]
    refine is_neg (is_ofInt (by rw [abs_lt]; omega)) ?_
    calc |(d : ℚ)| ≤ 2 ^ 32 := by exact_mod_cast abs_le.mpr hd
      _ < 2 ^ 1022 := pow_lt_pow_right₀ (by norm_num) (by norm_num)
  all_goals
    simp only [abs_lt, abs_le]
    omega

/-- Cutting at the edge with the greatest coordinate, however great. -/
lemma cut?_last {d x last : ℤ} (holds : st.Holds edges a b) (hd : |d| ≤ 2 ^ 32)
    (hx : |x| ≤ 2 ^ 31) (hl : -2 ^ 31 ≤ last) :
    Covers (edges ++ [⟨d, last - x⟩])
      (st.cut? (Scalar.ofInt d) (Scalar.ofInt last - Scalar.ofInt x)) := by
  rw [abs_le] at hd hx
  have p : Is (Scalar.ofInt d : Float) d := is_ofInt (by rw [abs_lt]; omega)
  have x' : Is (Scalar.ofInt x : Float) x := is_ofInt (by rw [abs_lt]; omega)
  rcases lt_or_ge last (2 ^ 52) with near | far
  · refine holds.cut? p (is_difference (is_ofInt ?_) x' ?_) ?_ ?_
    all_goals
      simp only [abs_lt, abs_le]
      omega
  · refine holds.cut?_far p ((atLeast_ofInt far).sub x' ?_) ?_ ?_
    · have : |(x : ℚ)| ≤ 2 ^ 31 := by exact_mod_cast abs_le.mpr hx
      linarith
    all_goals
      simp only [abs_le]
      omega

end Stretch.Holds

/-- If cutting at some edges leaves what fits them, and then at others, so does cutting at all. -/
lemma Covers.bind {edges rest : List Edge} {o : Option (Stretch Float)}
    {f : Stretch Float → Option (Stretch Float)} (ho : Covers edges o)
    (hf : ∀ st a b, st.Holds edges a b → Covers (edges ++ rest) (f st)) :
    Covers (edges ++ rest) (o >>= f) := by
  cases o with
  | none =>
    intro c nonneg le fits
    exact ho c nonneg le fun e mem => fits e (List.mem_append_left _ mem)
  | some st =>
    obtain ⟨a, b, holds⟩ := ho
    exact hf st a b holds

namespace Segment

/-- The coordinates of a segment and a square are of 32 bits, but for the greatest of the square. -/
structure Moderate (s : Segment) (first last : ℤ) : Prop where
  startX : |s.start.x| ≤ 2 ^ 31
  startY : |s.start.y| ≤ 2 ^ 31
  stopX : |s.stop.x| ≤ 2 ^ 31
  stopY : |s.stop.y| ≤ 2 ^ 31
  first : |first| ≤ 2 ^ 31
  last : -2 ^ 31 ≤ last

/-- The edges of a square as a segment meets them. -/
def edges (s : Segment) (first last : ℤ) : List Edge :=
  [⟨-(s.stop.x - s.start.x), s.start.x - first⟩, ⟨s.stop.x - s.start.x, last - s.start.x⟩,
    ⟨-(s.stop.y - s.start.y), s.start.y - first⟩, ⟨s.stop.y - s.start.y, last - s.start.y⟩]

/-- The difference of two coordinates of 32 bits has 33 bits. -/
lemma abs_sub_le_of_abs_le {m n : ℤ} (hm : |m| ≤ 2 ^ 31) (hn : |n| ≤ 2 ^ 31) :
    |m - n| ≤ 2 ^ 32 := by
  rw [abs_le] at *
  omega

/-- What is left of a segment is what fits all four edges. -/
lemma covers_stretch? {s : Segment} {first last : ℤ} (moderate : s.Moderate first last) :
    Covers (s.edges first last) (s.stretch? Float first last) := by
  obtain ⟨startX, startY, stopX, stopY, hf, hl⟩ := moderate
  have dx := abs_sub_le_of_abs_le stopX startX
  have dy := abs_sub_le_of_abs_le stopY startY
  have whole : (Stretch.whole : Stretch Float).Holds [] 0 1 := by
    refine ⟨Stretch.Holds.is_zero, Stretch.Holds.is_unit, zero_le_one, fun c => ?_, .inl rfl,
      .inl rfl⟩
    simp
  have one := whole.cut?_first dx startX hf
  have two := one.bind fun st a b holds => holds.cut?_last dx startX hl
  have three := two.bind fun st a b holds => holds.cut?_first dy startY hf
  have four := three.bind fun st a b holds => holds.cut?_last dy startY hl
  simp only [bind_assoc] at four
  exact four

/-- The first coordinate of a segment at a parameter. -/
def xAt (s : Segment) (c : ℚ) : ℚ := s.start.x + c * (s.stop.x - s.start.x : ℤ)

/-- The second coordinate of a segment at a parameter. -/
def yAt (s : Segment) (c : ℚ) : ℚ := s.start.y + c * (s.stop.y - s.start.y : ℤ)

/-- The point of a segment at a parameter is in a square. -/
def Inside (s : Segment) (first last : ℤ) (c : ℚ) : Prop :=
  (first ≤ s.xAt c ∧ s.xAt c ≤ last) ∧ first ≤ s.yAt c ∧ s.yAt c ≤ last

variable {s : Segment} {first last : ℤ} {c : ℚ}

/-- A square has four edges. -/
lemma forall_mem_edges {P : Edge → Prop} :
    (∀ e ∈ s.edges first last, P e) ↔
      P ⟨-(s.stop.x - s.start.x), s.start.x - first⟩ ∧ P ⟨s.stop.x - s.start.x, last - s.start.x⟩ ∧
      P ⟨-(s.stop.y - s.start.y), s.start.y - first⟩ ∧
        P ⟨s.stop.y - s.start.y, last - s.start.y⟩ := by
  simp [edges]

/-- What is in the square fits its edges, when it is rounded as the crossings are. -/
lemma Inside.fits (inside : s.Inside first last c) :
    ∀ e ∈ s.edges first last, e.Fits (rounded c) := by
  obtain ⟨⟨left, right⟩, above, below⟩ := inside
  rw [xAt] at left right
  rw [yAt] at above below
  rw [forall_mem_edges]
  refine ⟨Edge.fits_of_le ?_, Edge.fits_of_le ?_, Edge.fits_of_le ?_, Edge.fits_of_le ?_⟩ <;>
    push_cast at * <;> linarith

/-- Segments with coordinates of 32 bits meet the edges with slopes of 33 bits. -/
lemma Moderate.slope (moderate : s.Moderate first last) :
    ∀ e ∈ s.edges first last, |e.slope| ≤ 2 ^ 32 := by
  have dx := abs_sub_le_of_abs_le moderate.stopX moderate.startX
  have dy := abs_sub_le_of_abs_le moderate.stopY moderate.startY
  rw [forall_mem_edges]
  exact ⟨by rwa [abs_neg], dx, by rwa [abs_neg], dy⟩

/-- A parameter that fits is that of a point in the square, up to the errors of rounding. -/
lemma near_of_fits (moderate : s.Moderate first last) (nonneg : 0 ≤ c) (le : c ≤ 1)
    (fits : ∀ e ∈ s.edges first last, e.Fits c) :
    (first - Edge.slack ≤ s.xAt c ∧ s.xAt c ≤ last + Edge.slack) ∧
      first - Edge.slack ≤ s.yAt c ∧ s.yAt c ≤ last + Edge.slack := by
  have near : ∀ e ∈ s.edges first last, e.slope * c ≤ e.room + Edge.slack :=
    fun e mem => (fits e mem).near nonneg le (moderate.slope e mem)
  rw [forall_mem_edges] at near
  obtain ⟨left, right, above, below⟩ := near
  simp only [xAt, yAt]
  push_cast at *
  refine ⟨⟨?_, ?_⟩, ?_, ?_⟩ <;> linarith

/-- An integer less than the next one is not greater. -/
lemma le_of_cast_lt {m n : ℤ} (less : (m : ℚ) < n + 1) : m ≤ n :=
  Int.lt_add_one_iff.mp (by exact_mod_cast less)

/-- The integer nearest to a coordinate in the square is not brought elsewhere. -/
lemma clamp_of_near {n : ℤ} {q : ℚ} (near : |n - q| ≤ 1 / 2 + Edge.slack)
    (low : first - Edge.slack ≤ q) (high : q ≤ last + Edge.slack) : clamp first last n = n := by
  have bounds := abs_le.mp near
  have small : Edge.slack < 1 / 4 := by norm_num [Edge.slack]
  have least : first ≤ n := le_of_cast_lt (by linarith)
  have greatest : n ≤ last := le_of_cast_lt (by linarith)
  rw [clamp, min_eq_left greatest, max_eq_right least]

/-- A coordinate of the cell at a parameter is nearest to that of the point. -/
lemma near_round {x d : ℤ} {t : Float} (ht : Is t c) (nonneg : 0 ≤ c) (le : c ≤ 1)
    (hx : |x| ≤ 2 ^ 31) (hd : |d| ≤ 2 ^ 32) (low : first - Edge.slack ≤ x + c * d)
    (high : x + c * d ≤ last + Edge.slack) :
    |clamp first last (Scalar.round (Scalar.ofInt x + t * Scalar.ofInt d)) - (x + c * d)| ≤
      1 / 2 + Edge.slack := by
  have hx' : |(x : ℚ)| ≤ 2 ^ 31 := by exact_mod_cast hx
  have hd' : |(d : ℚ)| ≤ 2 ^ 32 := by exact_mod_cast hd
  have product : |c * d| ≤ 2 ^ 32 := by
    rw [abs_mul, abs_of_nonneg nonneg]
    calc c * |(d : ℚ)| ≤ 1 * 2 ^ 32 := by gcongr
      _ = 2 ^ 32 := one_mul _
  have ceiling {k : ℕ} (less : k < 1022) : (2 : ℚ) ^ k < 2 ^ 1022 :=
    pow_lt_pow_right₀ (by norm_num) less
  -- the product and the sum are each rounded once
  have off : |rounded (c * d) - c * d| ≤ 1 / 2 ^ 21 :=
    (rounded_near_of_lt (k := 33) (product.trans_lt (by norm_num)) (by norm_num)).trans
      (by norm_num)
  have moved := is_mul ht (is_ofInt (n := d) (by rw [abs_le] at hd; rw [abs_lt]; omega))
    (product.trans_lt (ceiling (by norm_num)))
  have total : |x + rounded (c * d)| ≤ 2 ^ 33 := by
    rw [abs_le] at *
    constructor <;> linarith
  have off' : |rounded (x + rounded (c * d)) - (x + rounded (c * d))| ≤ 1 / 2 ^ 20 :=
    (rounded_near_of_lt (k := 34) (total.trans_lt (by norm_num)) (by norm_num)).trans (by norm_num)
  have point := is_add (is_ofInt (n := x) (by rw [abs_le] at hx; rw [abs_lt]; omega)) moved
    (total.trans_lt (ceiling (by norm_num)))
  have close := near_toInt point (by rw [abs_le] at *; constructor <;> linarith)
  have near : |(Scalar.round (Scalar.ofInt x + t * Scalar.ofInt d : Float) : ℚ) - (x + c * d)| ≤
      1 / 2 + Edge.slack := by
    change |(toInt (Float.ofInt x + t * Float.ofInt d) : ℚ) - (x + c * d)| ≤ _
    rw [abs_le] at *
    norm_num [Edge.slack]
    constructor <;> linarith
  rwa [clamp_of_near near low high]

/-- A cell stands for the point of a segment at a parameter: it is nearest on both axes, and on one
of them it is exact, up to the errors of rounding. -/
structure CellOf (s : Segment) (p : Point) (c : ℚ) : Prop where
  x : |p.x - s.xAt c| ≤ 1 / 2 + Edge.slack
  y : |p.y - s.yAt c| ≤ 1 / 2 + Edge.slack
  exact : |p.x - s.xAt c| ≤ Edge.slack ∨ |p.y - s.yAt c| ≤ Edge.slack

/-- The first end of a segment stands for its first point. -/
lemma cellOf_start (s : Segment) : s.CellOf s.start 0 := by
  constructor <;> norm_num [xAt, yAt, Edge.slack]

/-- The last end of a segment stands for its last point. -/
lemma cellOf_stop (s : Segment) : s.CellOf s.stop 1 := by
  constructor <;> norm_num [xAt, yAt, Edge.slack]

/-- A nearest integer is exact if there is an integer as near as errors of rounding are. -/
lemma near_of_integer {m n : ℤ} {q : ℚ} (near : |m - q| ≤ 1 / 2 + Edge.slack)
    (integer : |q - n| ≤ Edge.slack) : |m - q| ≤ Edge.slack := by
  have small : Edge.slack < 1 / 4 := by norm_num [Edge.slack]
  have bounds := abs_le.mp near
  have bounds' := abs_le.mp integer
  have same : m = n := le_antisymm (le_of_cast_lt (by linarith)) (le_of_cast_lt (by linarith))
  rw [same, abs_sub_comm]
  exact integer

/-- The cell at a crossing is on the edge. -/
lemma cellOf_cellAt (moderate : s.Moderate first last) {e : Edge} (mem : e ∈ s.edges first last)
    (nonzero : e.slope ≠ 0) {t : Float} (ht : Is t e.crossing) (nonneg : 0 ≤ e.crossing)
    (le : e.crossing ≤ 1) (fits : ∀ e' ∈ s.edges first last, e'.Fits e.crossing) :
    s.CellOf (s.cellAt Float first last t) e.crossing := by
  obtain ⟨⟨left, right⟩, above, below⟩ := near_of_fits moderate nonneg le fits
  have x := near_round ht nonneg le moderate.startX
    (abs_sub_le_of_abs_le moderate.stopX moderate.startX) left right
  have y := near_round ht nonneg le moderate.startY
    (abs_sub_le_of_abs_le moderate.stopY moderate.startY) above below
  refine ⟨x, y, ?_⟩
  -- on the axis across the edge, the coordinate is that of the edge
  have near := abs_le.mp (Edge.crossing_near nonzero (moderate.slope e mem) nonneg le)
  simp only [edges, List.mem_cons, List.not_mem_nil, or_false] at mem
  rcases mem with rfl | rfl | rfl | rfl <;> push_cast at near
  · left
    refine near_of_integer (n := first) x (abs_le.mpr ?_)
    constructor <;> push_cast [xAt] <;> linarith only [near]
  · left
    refine near_of_integer (n := last) x (abs_le.mpr ?_)
    constructor <;> push_cast [xAt] <;> linarith only [near]
  · right
    refine near_of_integer (n := first) y (abs_le.mpr ?_)
    constructor <;> push_cast [yAt] <;> linarith only [near]
  · right
    refine near_of_integer (n := last) y (abs_le.mpr ?_)
    constructor <;> push_cast [yAt] <;> linarith only [near]

/-- The part of a segment between two parameters, in cells: just what fits the edges of a square. An
end that is not cut off is that of the segment. -/
structure Clipped (s : Segment) (first last : ℤ) (part : Segment) (a b : ℚ) : Prop where
  le : a ≤ b
  mem : ∀ c, a ≤ c ∧ c ≤ b ↔ (0 ≤ c ∧ c ≤ 1) ∧ ∀ e ∈ s.edges first last, e.Fits c
  start : s.CellOf part.start a
  stop : s.CellOf part.stop b
  start_eq : a = 0 → part.start = s.start
  stop_eq : b = 1 → part.stop = s.stop

/-- What clipping leaves is the part of the segment that fits the edges. -/
lemma clipped_of_clip? {part : Segment} (moderate : s.Moderate first last)
    (clipped : s.clip? Float first last = some part) : ∃ a b, s.Clipped first last part a b := by
  have covers := covers_stretch? moderate
  rw [clip?] at clipped
  split at clipped
  · cases clipped
  · obtain ⟨st, found, rfl⟩ := Option.map_eq_some_iff.mp clipped
    rw [found] at covers
    obtain ⟨a, b, holds⟩ := covers
    have nonneg := holds.nonneg
    have le_one := holds.le_one
    have le := holds.le
    -- an end is moved only if its parameter is, which is compared in doubles
    have uncutStart (zero : a = 0) : ¬ (Scalar.ofInt 0 : Float) < st.enter :=
      mt (lt_iff Stretch.Holds.is_zero holds.enter).mp zero.not_gt
    have uncutStop (one : b = 1) : ¬ st.leave < (Scalar.ofInt 1 : Float) :=
      mt (lt_iff holds.leave Stretch.Holds.is_unit).mp one.not_lt
    refine ⟨a, b, le, holds.mem, ?_, ?_, fun zero => if_neg (uncutStart zero),
      fun one => if_neg (uncutStop one)⟩
    · rcases nonneg.eq_or_lt with zero | cut
      · simp only [if_neg (uncutStart zero.symm), ← zero]
        exact s.cellOf_start
      · obtain zero | ⟨e, mem, slope, rfl⟩ := holds.first
        · exact absurd zero cut.ne'
        · simp only [if_pos ((lt_iff Stretch.Holds.is_zero holds.enter).mpr cut)]
          exact cellOf_cellAt moderate mem slope.ne holds.enter nonneg (le.trans le_one)
            ((holds.mem _).mp ⟨le_rfl, le⟩).2
    · rcases le_one.eq_or_lt with one | cut
      · simp only [if_neg (uncutStop one), one]
        exact s.cellOf_stop
      · obtain one | ⟨e, mem, slope, rfl⟩ := holds.last
        · exact absurd one cut.ne
        · simp only [if_pos ((lt_iff holds.leave Stretch.Holds.is_unit).mpr cut)]
          exact cellOf_cellAt moderate mem slope.ne' holds.leave (nonneg.trans le) le_one
            ((holds.mem _).mp ⟨le, le_rfl⟩).2

/-- Nothing is left of a segment only if no point of it is in the square. -/
lemma not_inside_of_clip? (moderate : s.Moderate first last)
    (clipped : s.clip? Float first last = none) (nonneg : 0 ≤ c) (le : c ≤ 1) :
    ¬ s.Inside first last c := by
  intro inside
  have covers := covers_stretch? moderate
  rw [clip?] at clipped
  split at clipped
  · next empty =>
    have : (first : ℚ) ≤ last := inside.1.1.trans inside.1.2
    exact absurd (by exact_mod_cast this) empty.not_ge
  · rw [Option.map_eq_none_iff.mp clipped] at covers
    exact covers (rounded c) (rounded_nonneg nonneg) (Edge.rounded_le_one le) inside.fits

/-- Clipping leaves something of a segment that has a point in the square. -/
lemma exists_clipped (moderate : s.Moderate first last) (nonneg : 0 ≤ c) (le : c ≤ 1)
    (inside : s.Inside first last c) :
    ∃ part a b, s.clip? Float first last = some part ∧ s.Clipped first last part a b := by
  cases found : s.clip? Float first last with
  | none => exact absurd inside (not_inside_of_clip? moderate found nonneg le)
  | some part =>
    obtain ⟨a, b, clipped⟩ := clipped_of_clip? moderate found
    exact ⟨part, a, b, rfl, clipped⟩

variable {part : Segment} {a b : ℚ}

/-- A point in the square is not cut off. -/
lemma Clipped.rounded_mem (clipped : s.Clipped first last part a b) (nonneg : 0 ≤ c) (le : c ≤ 1)
    (inside : s.Inside first last c) : a ≤ rounded c ∧ rounded c ≤ b :=
  (clipped.mem _).mpr ⟨⟨rounded_nonneg nonneg, Edge.rounded_le_one le⟩, inside.fits⟩

/-- An end in the square is not cut off. -/
lemma Clipped.start_of_inside (clipped : s.Clipped first last part a b)
    (inside : s.Inside first last 0) : part.start = s.start := by
  have least := (clipped.rounded_mem le_rfl zero_le_one inside).1
  rw [rounded_zero] at least
  exact clipped.start_eq (le_antisymm least ((clipped.mem a).mp ⟨le_rfl, clipped.le⟩).1.1)

/-- A last end in the square is not cut off. -/
lemma Clipped.stop_of_inside (clipped : s.Clipped first last part a b)
    (inside : s.Inside first last 1) : part.stop = s.stop := by
  have greatest := (clipped.rounded_mem zero_le_one le_rfl inside).2
  rw [rounded_one] at greatest
  exact clipped.stop_eq (le_antisymm ((clipped.mem b).mp ⟨clipped.le, le_rfl⟩).1.2 greatest)

/-- A segment with both ends in the square stays as it is. -/
lemma clip?_of_inside (moderate : s.Moderate first last) (start : s.Inside first last 0)
    (stop : s.Inside first last 1) : s.clip? Float first last = some s := by
  obtain ⟨part, a, b, found, clipped⟩ := exists_clipped moderate le_rfl zero_le_one start
  have whole : part = ⟨s.start, s.stop⟩ := by
    rw [← clipped.start_of_inside start, ← clipped.stop_of_inside stop]
  exact found.trans (congrArg some whole)

/-- Nothing is left of a segment with both ends on the outer side of an edge. -/
lemma clip?_of_outside (moderate : s.Moderate first last) {e : Edge}
    (mem : e ∈ s.edges first last) (start : e.room < 0) (stop : e.room < e.slope) :
    s.clip? Float first last = none := by
  cases found : s.clip? Float first last with
  | none => rfl
  | some part =>
    obtain ⟨a, b, clipped⟩ := clipped_of_clip? moderate found
    obtain ⟨⟨nonneg, le⟩, fits⟩ := (clipped.mem a).mp ⟨le_rfl, clipped.le⟩
    exact absurd (fits e mem) (Edge.not_fits start stop (moderate.slope e mem) nonneg le)

end Segment

end Easel
