import Easel.Proofs.BrushDisk
import Easel.Proofs.Filling
import Easel.Proofs.NearestColumns
import Easel.Proofs.PlainCircle
import Mathlib.Data.List.Cycle

/-!
# The ring of a circle

A circle consists of the reflections of an eighth of it (`OnCircle`), which are the points whose
greater offset from the centre is the column of the smaller one (`onCircle_iff`). An eighth and its
mirror image meet at the diagonal, so together they lead through a quarter of the circle
(`Octant.isChain_quarter`), and the turns of a quarter form a ring (`Point.closedRing_of_quarter`).
The ring is tight enough for no way of steps to neighbours to lead out of it
(`Octant.major_lt_of_reaches`). All this follows from the shape of the eighth alone (`Octant`),
which the nearest columns have (`Canvas.drawCircle_ring`).
-/

namespace Easel

/-- A point is on a circle: it is a reflection of a point in a row that is not greater than its
column. -/
def OnCircle (column : ℤ → ℤ) (centre p : Point) : Prop :=
  ∃ y, 0 ≤ y ∧ y ≤ column y ∧ p ∈ reflections centre (column y) y

namespace Point

/-- Points are at most one column and one row apart. -/
def Near (p q : Point) : Prop := (q.x - p.x).natAbs ≤ 1 ∧ (q.y - p.y).natAbs ≤ 1

/-- Points form one closed ring: they can be passed in turn, each of them once, such that each is
near the one before and the first is near the last. -/
def ClosedRing (points : Point → Prop) : Prop :=
  ∃ ring : Cycle Point, ring.Nodup ∧ ring.Chain Near ∧ ∀ p, p ∈ ring ↔ points p

/-- The point can be reached from the seed by steps to neighbours, and no point on the way, both
ends included, is blocked. -/
inductive Reaches (blocked : Point → Prop) (seed : Point) : Point → Prop where
  | seed : ¬ blocked seed → Reaches blocked seed seed
  | step {p q : Point} : Reaches blocked seed p → p.Beside q → ¬ blocked q → Reaches blocked seed q

/-- The greater one of the offsets of a point from a centre on both axes. -/
def major (centre p : Point) : ℤ := max |p.x - centre.x| |p.y - centre.y|

/-- The smaller one of the offsets. -/
def minor (centre p : Point) : ℤ := min |p.x - centre.x| |p.y - centre.y|

/-- A quarter turn around a centre. -/
def turn (centre p : Point) : Point := ⟨centre.x - (p.y - centre.y), centre.y + (p.x - centre.x)⟩

/-- The points of a list and their quarter turns. -/
def turns (centre : Point) (l : List Point) : List Point :=
  l ++ (l.map centre.turn ++ ((l.map centre.turn).map centre.turn ++
    ((l.map centre.turn).map centre.turn).map centre.turn))

variable {centre p q : Point}

/-- The smaller offset is not negative. -/
lemma minor_nonneg : 0 ≤ centre.minor p := by
  simp only [minor, Int.abs_eq_natAbs]
  omega

/-- A point has no offset from itself. -/
lemma major_self : centre.major centre = 0 := by simp [major]

/-- A point has no offset from itself. -/
lemma minor_self : centre.minor centre = 0 := by simp [minor]

/-- The smaller offset is not greater than the greater one. -/
lemma minor_le_major : centre.minor p ≤ centre.major p := min_le_max

/-- A point without an offset is the centre. -/
lemma eq_of_major_nonpos (nonpos : centre.major p ≤ 0) : p = centre := by
  obtain ⟨column, row⟩ := max_le_iff.mp nonpos
  rw [abs_nonpos_iff, sub_eq_zero] at column row
  exact congrArg₂ mk column row

/-- A turn keeps the greater offset. -/
lemma major_turn : centre.major (centre.turn p) = centre.major p := by
  simp only [major, turn, Int.abs_eq_natAbs]
  omega

/-- A turn keeps the smaller offset. -/
lemma minor_turn : centre.minor (centre.turn p) = centre.minor p := by
  simp only [minor, turn, Int.abs_eq_natAbs]
  omega

/-- A step changes one of the two offsets. -/
lemma Beside.offsets (beside : p.Beside q) :
    (centre.minor q = centre.minor p ∧
        (centre.major q = centre.major p + 1 ∨ centre.major q = centre.major p - 1)) ∨
      (centre.major q = centre.major p ∧
        (centre.minor q = centre.minor p + 1 ∨ centre.minor q = centre.minor p - 1)) := by
  have moved {u v : ℤ} (apart : (u - v).natAbs = 1) : |u| = |v| + 1 ∨ |u| = |v| - 1 := by
    simp only [Int.abs_eq_natAbs]
    omega
  have axis : (q.x - p.x).natAbs = 1 ∧ q.y = p.y ∨ q.x = p.x ∧ (q.y - p.y).natAbs = 1 := by
    unfold Beside at beside
    omega
  simp only [major, minor]
  rcases axis with ⟨column, row⟩ | ⟨column, row⟩
  · rw [row]
    have := @moved (q.x - centre.x) (p.x - centre.x) (by rwa [sub_sub_sub_cancel_right])
    omega
  · rw [column]
    have := @moved (q.y - centre.y) (p.y - centre.y) (by rwa [sub_sub_sub_cancel_right])
    omega

/-- The reflections of a point of an eighth are known by their offsets. -/
lemma mem_reflections {x y : ℤ} (low : 0 ≤ y) (le : y ≤ x) :
    p ∈ reflections centre x y ↔ centre.major p = x ∧ centre.minor p = y := by
  obtain ⟨px, py⟩ := p
  simp only [reflections, shift, List.mem_cons, List.not_mem_nil, or_false, mk.injEq, major, minor,
    Int.abs_eq_natAbs]
  omega

/-- Four turns bring a point back. -/
lemma turn_four : centre.turn (centre.turn (centre.turn (centre.turn p))) = p := by
  simp [turn]

/-- A turn keeps neighbours together. -/
lemma Near.turn (near : p.Near q) : (centre.turn p).Near (centre.turn q) := by
  simp only [Near, Point.turn] at *
  omega

/-- What is turned comes from where three more turns lead. -/
lemma mem_map_turn {l : List Point} :
    p ∈ l.map centre.turn ↔ centre.turn (centre.turn (centre.turn p)) ∈ l := by
  rw [List.mem_map]
  constructor
  · rintro ⟨q, mem, rfl⟩
    rwa [turn_four]
  · intro mem
    exact ⟨_, mem, turn_four⟩

/-- A path stays one if it is turned. -/
lemma isChain_map_turn {l : List Point} (chain : l.IsChain Near) :
    (l.map centre.turn).IsChain Near :=
  (List.isChain_map _).mpr (chain.imp fun _ _ near => near.turn)

/-- No two points are turned to the same place. -/
lemma turn_injective : Function.Injective centre.turn := by
  intro p q same
  rw [← @turn_four centre p, same, turn_four]

/-- The four turns of a quarter repeat no point. -/
lemma nodup_turns {l : List Point} (nodup : l.Nodup)
    (quarter : ∀ {p}, p ∈ l → centre.x < p.x ∧ centre.y ≤ p.y) : (centre.turns l).Nodup := by
  have nodup₁ := nodup.map (@turn_injective centre)
  have nodup₂ := nodup₁.map (@turn_injective centre)
  have nodup₃ := nodup₂.map (@turn_injective centre)
  -- each turn of the quarter is in another quarter of the plane
  have mem₁ {p : Point} (mem : p ∈ l.map centre.turn) : p.x ≤ centre.x ∧ centre.y < p.y := by
    have := quarter (mem_map_turn.mp mem)
    simp only [turn] at this
    omega
  have mem₂ {p : Point} (mem : p ∈ (l.map centre.turn).map centre.turn) :
      p.x < centre.x ∧ p.y ≤ centre.y := by
    have := mem₁ (mem_map_turn.mp mem)
    simp only [turn] at this
    omega
  have mem₃ {p : Point} (mem : p ∈ ((l.map centre.turn).map centre.turn).map centre.turn) :
      centre.x ≤ p.x ∧ p.y < centre.y := by
    have := mem₂ (mem_map_turn.mp mem)
    simp only [turn] at this
    omega
  simp only [turns, List.nodup_append', List.disjoint_append_right]
  refine ⟨nodup, ⟨nodup₁, ⟨nodup₂, nodup₃, ?_⟩, ?_, ?_⟩, ?_, ?_, ?_⟩
  · exact fun p mem mem' => (mem₂ mem).1.not_ge (mem₃ mem').1
  · exact fun p mem mem' => (mem₁ mem).2.not_ge (mem₂ mem').2
  · exact fun p mem mem' => (mem₁ mem).2.not_gt (mem₃ mem').2
  · exact fun p mem mem' => (quarter mem).1.not_ge (mem₁ mem').1
  · exact fun p mem mem' => (quarter mem).1.not_gt (mem₂ mem').1
  · exact fun p mem mem' => (quarter mem).2.not_gt (mem₃ mem').2

/-- A list that leads to its own quarter turn is closed by its turns. -/
lemma chain_turns {l : List Point} (chain : (q :: (l ++ [centre.turn q])).IsChain Near) :
    Cycle.Chain Near (centre.turns (q :: l)) := by
  have chain₁ := @isChain_map_turn centre _ chain
  have chain₂ := @isChain_map_turn centre _ chain₁
  have chain₃ := @isChain_map_turn centre _ chain₂
  simp only [List.map_cons, List.map_append, List.map_nil, turn_four] at chain₁ chain₂ chain₃
  simp only [turns, List.map_cons, List.cons_append]
  rw [Cycle.chain_coe_cons]
  simp only [List.append_assoc, List.cons_append]
  exact List.isChain_cons_split.mpr ⟨chain, List.isChain_cons_split.mpr ⟨chain₁,
    List.isChain_cons_split.mpr ⟨chain₂, chain₃⟩⟩⟩

/-- Points that remain the same in quarter turns around a centre form a ring if a quarter of them
leads to its own turn. -/
lemma closedRing_of_quarter {points : Point → Prop} {l : List Point}
    (turned : ∀ p, points (centre.turn p) ↔ points p) (off : ¬ points centre)
    (mem : ∀ p, p ∈ q :: l ↔ points p ∧ centre.x < p.x ∧ centre.y ≤ p.y) (nodup : (q :: l).Nodup)
    (chain : (q :: (l ++ [centre.turn q])).IsChain Near) : ClosedRing points := by
  refine ⟨centre.turns (q :: l), nodup_turns nodup fun {p} there => ((mem p).mp there).2,
    chain_turns chain, fun p => ?_⟩
  simp only [Cycle.mem_coe_iff, turns, List.mem_append, mem_map_turn, mem, turned, ← and_or_left,
    and_iff_left_iff_imp]
  intro on
  have elsewhere : ¬ (p.x = centre.x ∧ p.y = centre.y) := by
    intro here
    have same : p = centre := congrArg₂ mk here.1 here.2
    exact off (same ▸ on)
  simp only [turn]
  omega

/-- The distance is that of the two offsets. -/
lemma sq_add_sq :
    (p.x - centre.x) ^ 2 + (p.y - centre.y) ^ 2 = centre.major p ^ 2 + centre.minor p ^ 2 := by
  rw [major, minor, ← sq_abs (p.x - centre.x), ← sq_abs (p.y - centre.y)]
  rcases le_total |p.x - centre.x| |p.y - centre.y| with le | le
  · rw [max_eq_right le, min_eq_left le, add_comm]
  · rw [max_eq_left le, min_eq_right le]

end Point

variable {column : ℤ → ℤ} {centre p q : Point}

/-- On a circle the greater offset is the column of the smaller one. -/
lemma onCircle_iff : OnCircle column centre p ↔ column (centre.minor p) = centre.major p := by
  constructor
  · rintro ⟨y, low, inside, mem⟩
    obtain ⟨major, minor⟩ := (Point.mem_reflections low inside).mp mem
    rw [major, minor]
  · intro same
    have inside : centre.minor p ≤ column (centre.minor p) := same ▸ Point.minor_le_major
    exact ⟨centre.minor p, Point.minor_nonneg, inside,
      (Point.mem_reflections Point.minor_nonneg inside).mpr ⟨same.symm, rfl⟩⟩

/-- A turn keeps points on the circle. -/
lemma onCircle_turn : OnCircle column centre (centre.turn p) ↔ OnCircle column centre p := by
  rw [onCircle_iff, onCircle_iff, Point.major_turn, Point.minor_turn]

/-- What holds from each integer of a range to the next makes a chain of their images. -/
lemma isChain_map_between {α : Type} {R : α → α → Prop} {f : ℤ → α} {first last : ℤ}
    (step : ∀ y, first ≤ y → y < last → R (f y) (f (y + 1))) :
    ((between first last).map f).IsChain R := by
  rw [between, List.map_map, List.isChain_map, List.isChain_range]
  intro k less
  have next := step (first + k) (by omega) (by omega)
  rw [add_assoc] at next
  exact_mod_cast next

namespace Octant

variable {radius : ℕ} {last : ℤ}

/-- The walk through the rows ends after the last one. -/
lemma octantRowsFrom_eq (octant : Octant column radius last) {n : ℕ} {first : ℤ}
    {visited : List ℤ} (low : 0 ≤ first) (le : first ≤ last + 1) (enough : last + 1 < first + n) :
    octantRowsFrom column n first visited = ((between first last).reverse ++ visited, true) := by
  induction n generalizing first visited with
  | zero => omega
  | succ n ih =>
    rw [octantRowsFrom]
    split
    · next ended =>
      have beyond : last < first := not_le.mp (mt (octant.rows low).mpr (not_le.mpr ended))
      rw [between_of_lt beyond]
      rfl
    · next goesOn =>
      have inside : first ≤ last := (octant.rows low).mp (not_lt.mp goesOn)
      rw [ih (by omega) (by omega) (by push_cast at enough; omega), between_cons inside]
      simp

/-- The rows of an octant begin at the centre. -/
lemma last_nonneg (octant : Octant column radius last) : 0 ≤ last := by
  rw [← octant.rows le_rfl, octant.start]
  omega

/-- Only a circle with the radius zero passes its centre. -/
lemma onCircle_centre (octant : Octant column radius last) :
    OnCircle column centre centre ↔ radius = 0 := by
  rw [onCircle_iff, Point.major_self, Point.minor_self, octant.start, Nat.cast_eq_zero]

/-- A way from the centre that does not pass the circle stays within it. A step that makes the
smaller offset greater lowers the column by at most one, so it cannot jump over the circle. -/
lemma major_lt_of_reaches (octant : Octant column radius last)
    (reached : Point.Reaches (OnCircle column centre) centre p) :
    centre.major p < column (centre.minor p) := by
  induction reached with
  | seed free =>
    rw [octant.onCircle_centre] at free
    rw [Point.major_self, Point.minor_self, octant.start]
    omega
  | @step p q _ beside free inside =>
    rw [onCircle_iff] at free
    have low := @Point.minor_nonneg centre p
    rcases @Point.Beside.offsets centre p q beside with ⟨same, far⟩ | ⟨same, more | less⟩
    · rw [same] at free ⊢
      omega
    · -- there is no step from the last row, as what is inside there is on the diagonal
      have order := @Point.minor_le_major centre q
      have row := (octant.rows low).mp (by omega)
      rcases row.eq_or_lt with rfl | before
      · have := octant.diagonal
        omega
      · have := octant.gentle low before
        rw [more] at free ⊢
        omega
    · have := octant.falls (@Point.minor_nonneg centre q) (show _ ≤ centre.minor p by omega)
      omega

section Ring

/-- A quarter of a circle: the points of an eighth, and back the mirrored points that are beyond the
diagonal, without the one on the axis. -/
def quarter (column : ℤ → ℤ) (centre : Point) (last mirrored : ℤ) : List Point :=
  (between 0 last).map (fun y => centre.shift (column y) y) ++
    ((between 1 mirrored).map fun y => centre.shift y (column y)).reverse

variable {mirrored : ℤ}

/-- The rows of an eighth before the diagonal. -/
lemma exists_mirrored (octant : Octant column radius last) :
    ∃ mirrored, (mirrored = last ∨ mirrored = last - 1 ∧ column last = last) ∧
      ∀ {y}, 0 ≤ y → (y < column y ↔ y ≤ mirrored) := by
  have low := octant.last_nonneg
  have inside := (octant.rows low).mpr le_rfl
  rcases inside.eq_or_lt with there | beyond
  · refine ⟨last - 1, .inr ⟨rfl, there.symm⟩, fun {y} nonneg => ⟨fun less => ?_, fun le => ?_⟩⟩
    · have le := (octant.rows nonneg).mp less.le
      have ne : y ≠ last := by
        rintro rfl
        omega
      omega
    · have := octant.falls nonneg (show y ≤ last by omega)
      omega
  · refine ⟨last, .inl rfl, fun {y} nonneg => ⟨fun less => (octant.rows nonneg).mp less.le, ?_⟩⟩
    intro le
    have := octant.falls nonneg le
    omega

variable (octant : Octant column radius last) (positive : 0 < radius)
  (before : ∀ {y}, 0 ≤ y → (y < column y ↔ y ≤ mirrored))
include octant positive before

/-- The points of the path are those of the circle that are in the quarter. -/
lemma mem_quarter :
    p ∈ quarter column centre last mirrored ↔
      OnCircle column centre p ∧ centre.x < p.x ∧ centre.y ≤ p.y := by
  simp only [quarter, List.mem_append, List.mem_reverse, List.mem_map, mem_between]
  constructor
  · rintro (⟨y, ⟨low, le⟩, rfl⟩ | ⟨y, ⟨low, le⟩, rfl⟩)
    · have inside := (octant.rows low).mpr le
      have right : 0 < column y := by
        rcases low.eq_or_lt with rfl | later
        · rw [octant.start]
          omega
        · omega
      refine ⟨⟨y, low, inside, by simp [reflections]⟩, ?_⟩
      simp only [Point.shift]
      omega
    · have beyond := (before (by omega)).mpr le
      refine ⟨⟨y, by omega, beyond.le, by simp [reflections]⟩, ?_⟩
      simp only [Point.shift]
      omega
  · rintro ⟨on, right, below⟩
    rw [onCircle_iff, Point.major, Point.minor, abs_of_pos (by omega), abs_of_nonneg (by omega)]
      at on
    rcases le_or_gt (p.y - centre.y) (p.x - centre.x) with le | less
    · rw [min_eq_right le, max_eq_left le] at on
      refine .inl ⟨p.y - centre.y, ⟨by omega, (octant.rows (by omega)).mp (by omega)⟩, ?_⟩
      rw [on, Point.shift, add_sub_cancel, add_sub_cancel]
    · rw [min_eq_left less.le, max_eq_right less.le] at on
      refine .inr ⟨p.x - centre.x, ⟨by omega, (before (by omega)).mp (by omega)⟩, ?_⟩
      rw [on, Point.shift, add_sub_cancel, add_sub_cancel]

omit positive in
/-- The path through the quarter repeats no point. -/
lemma nodup_quarter : (quarter column centre last mirrored).Nodup := by
  refine List.Nodup.append ?_ (List.nodup_reverse.mpr ?_) fun p mem mem' => ?_
  · refine nodup_between.map fun y z same => ?_
    simp only [Point.shift, Point.mk.injEq] at same
    omega
  · refine nodup_between.map fun y z same => ?_
    simp only [Point.shift, Point.mk.injEq] at same
    omega
  · simp only [List.mem_reverse, List.mem_map, mem_between] at mem mem'
    obtain ⟨y, ⟨low, le⟩, rfl⟩ := mem
    obtain ⟨z, ⟨low', le'⟩, same⟩ := mem'
    simp only [Point.shift, Point.mk.injEq] at same
    have inside := (octant.rows low).mpr le
    have beyond := (before (by omega)).mpr le'
    omega

/-- A quarter leads from axis to axis. -/
lemma isChain_quarter (seam : mirrored = last ∨ mirrored = last - 1 ∧ column last = last) :
    (quarter column centre last mirrored ++ [centre.shift 0 radius]).IsChain Point.Near := by
  have nonneg : 0 ≤ mirrored := by
    rw [← before le_rfl, octant.start]
    omega
  -- with the point on the axis, the way back is the mirrored octant from its last row
  have back : ((between 1 mirrored).map fun y => centre.shift y (column y)).reverse ++
      [centre.shift 0 radius] =
        ((between 0 mirrored).map fun y => centre.shift y (column y)).reverse := by
    rw [between_cons nonneg, List.map_cons, List.reverse_cons, octant.start]
    rfl
  have low := octant.last_nonneg
  have step {y : ℤ} (nonneg : 0 ≤ y) (less : y < last) :
      column (y + 1) ≤ column y ∧ column y ≤ column (y + 1) + 1 :=
    ⟨octant.falls nonneg (by omega), octant.gentle nonneg less⟩
  rw [quarter, List.append_assoc, back, List.isChain_append, List.isChain_reverse,
    List.head?_reverse, List.getLast?_map, List.getLast?_map, getLast?_between low,
    getLast?_between nonneg]
  refine ⟨isChain_map_between fun y nonneg less => ?_,
    isChain_map_between fun y nonneg less => ?_, ?_⟩
  · have := step nonneg less
    simp only [Point.Near, Point.shift]
    omega
  · have := step nonneg (show y < last by omega)
    simp only [Point.Near, Point.shift]
    omega
  · -- the seam at the diagonal
    simp only [Option.map_some, Option.mem_def, Option.some.injEq, forall_eq', Point.Near,
      Point.shift]
    have inside := (octant.rows low).mpr le_rfl
    have diagonal := octant.diagonal
    rcases seam with rfl | ⟨rfl, there⟩
    · omega
    · have := step nonneg (by omega)
      rw [sub_add_cancel] at this
      omega

end Ring

/-- A circle is a ring. If the radius is zero, it is but one point. -/
lemma closedRing (octant : Octant column radius last) :
    Point.ClosedRing (OnCircle column centre) := by
  rcases radius.eq_zero_or_pos with rfl | positive
  · refine ⟨[centre], List.nodup_singleton centre, ?_, fun p => ?_⟩
    · rw [Cycle.chain_singleton]
      simp [Point.Near]
    · rw [Cycle.mem_coe_iff, List.mem_singleton]
      refine ⟨fun here => here ▸ octant.onCircle_centre.mpr rfl, fun on => ?_⟩
      rw [onCircle_iff] at on
      have falls := octant.falls le_rfl (@Point.minor_nonneg centre p)
      rw [octant.start, on, Nat.cast_zero] at falls
      exact Point.eq_of_major_nonpos falls
  · obtain ⟨mirrored, seam, before⟩ := octant.exists_mirrored
    obtain ⟨l, cons⟩ : ∃ l, quarter column centre last mirrored = centre.shift radius 0 :: l := by
      rw [quarter, between_cons octant.last_nonneg, List.map_cons, octant.start]
      exact ⟨_, rfl⟩
    have stop : centre.turn (centre.shift radius 0) = centre.shift 0 radius := by
      simp [Point.turn, Point.shift]
    refine Point.closedRing_of_quarter (fun p => onCircle_turn)
      (mt octant.onCircle_centre.mp positive.ne')
      (fun p => cons ▸ octant.mem_quarter positive before) (cons ▸ octant.nodup_quarter before) ?_
    rw [stop, ← List.cons_append, ← cons]
    exact octant.isChain_quarter positive before seam

/-- The circle is made of the reflections of its octant. -/
lemma mem_onCircle (octant : Octant column radius last) :
    OnCircle column centre p ↔ ∃ y ∈ between 0 last, p ∈ reflections centre (column y) y := by
  simp only [mem_between, and_assoc]
  exact exists_congr fun y => and_congr_right fun low => and_congr_left' (octant.rows low)

/-- What can be reached from the centre without meeting the circle is closer than the radius. -/
lemma within_of_reaches (octant : Octant column radius last)
    (reached : Point.Reaches (OnCircle column centre) centre p) :
    |p.x - centre.x| < radius ∧ |p.y - centre.y| < radius := by
  have inside := octant.major_lt_of_reaches reached
  have falls := octant.falls le_rfl (@Point.minor_nonneg centre p)
  rw [octant.start] at falls
  exact max_lt_iff.mp (inside.trans_le falls)

end Octant

/-- The square of the distance of a point of a circle is off by no more than the greater offset. -/
lemma abs_sq_sub_le {radius : ℕ} (on : OnCircle (nearestColumn radius) centre p) :
    |(p.x - centre.x) ^ 2 + (p.y - centre.y) ^ 2 - radius ^ 2| ≤
      max |p.x - centre.x| |p.y - centre.y| := by
  rw [onCircle_iff] at on
  have low := @Point.minor_nonneg centre p
  have high : centre.minor p ≤ radius :=
    le_of_le_nearestColumn low (on ▸ Point.minor_le_major)
  have close := (nearestRoot_nearestColumn low high).abs_sub_le (by nlinarith)
  rw [on] at close
  have square : centre.major p ^ 2 + centre.minor p ^ 2 - (radius : ℤ) ^ 2 =
      centre.major p * centre.major p - (radius * radius - centre.minor p * centre.minor p) := by
    ring
  rwa [Point.sq_add_sq, square]

namespace Canvas

/-- A circle is stamped at all its points, though windows leave out some of them. -/
lemma stamped_drawCircleWith {column : ℤ → ℤ → ℤ} {radius : ℕ} {last : ℤ}
    (octant : Octant (column radius) radius last) (c : Canvas) (centre : Point) (color : Color)
    (brush : Int) :
    c.Stamped (OnCircle (column radius) centre) (brushRadius brush) color
      (c.drawCircleWith column centre radius color brush) := by
  have within {y : ℤ} (low : 0 ≤ y) : column radius y ≤ radius :=
    (octant.falls le_rfl low).trans_eq octant.start
  have stamped := c.stamped_stampAll
    (circleCentres column c.size centre radius (brushRadius brush)) (brushRadius brush) color
  refine ⟨stamped.size_eq, stamped.background_eq, fun q on near => ?_, fun q off => ?_⟩
  · obtain ⟨p, ⟨y, low, inside, mem⟩, near⟩ := near
    have touched := mem_disk.mpr ⟨isSome_cellIndex?.mp on, near⟩
    exact stamped.painted q on
      ⟨p, mem_circleCentres_of_falls octant.falls within low inside mem touched, near⟩
  · refine stamped.unchanged q ?_
    rintro ⟨on, p, mem, near⟩
    exact off ⟨on, p, exists_of_mem_circleCentres mem, near⟩

/-- The ring of a circle with the nearest columns. The walk through an eighth ends next to the
diagonal, and the columns fall by at most one on it. Its reflections are one closed ring around the
centre, out of which there is no way by steps to neighbours, and the square of the distance of each
is off by no more than the greater offset. The ring is what is stamped, with a disk whose radius is
what the width of the brush has on each side of the centre. -/
theorem drawCircle_ring (radius : ℕ) (centre : Point) :
    (∃ last : ℤ, 0 ≤ last ∧
      (∀ n : ℕ, last + 1 < n → octantRowsFrom (nearestColumn radius) n 0 [] =
        ((between 0 last).reverse, true)) ∧
      (∀ y, 0 ≤ y → y < last →
        nearestColumn radius y = nearestColumn radius (y + 1) ∨
          nearestColumn radius y = nearestColumn radius (y + 1) + 1) ∧
      (last ≤ nearestColumn radius last ∧ nearestColumn radius last ≤ last + 1) ∧
      ∀ p, OnCircle (nearestColumn radius) centre p ↔
        ∃ y ∈ between 0 last, p ∈ reflections centre (nearestColumn radius y) y) ∧
    Point.ClosedRing (OnCircle (nearestColumn radius) centre) ∧
    (OnCircle (nearestColumn radius) centre centre ↔ radius = 0) ∧
    (∀ p, Point.Reaches (OnCircle (nearestColumn radius) centre) centre p →
      |p.x - centre.x| < radius ∧ |p.y - centre.y| < radius) ∧
    (∀ p, OnCircle (nearestColumn radius) centre p →
      |(p.x - centre.x) ^ 2 + (p.y - centre.y) ^ 2 - radius ^ 2| ≤
        max |p.x - centre.x| |p.y - centre.y|) ∧
    ∀ (c : Canvas) (color : Color) (brush width : ℤ) (reach : ℕ),
      IsWidth brush width → (reach : ℤ) = (width - 1) / 2 →
      c.Stamped (OnCircle (nearestColumn radius) centre) reach color
        (c.drawCircleWith nearestColumn centre radius color brush) := by
  obtain ⟨last, octant⟩ := exists_octant radius
  have low := octant.last_nonneg
  refine ⟨⟨last, low, fun n enough => ?_, fun y nonneg less => ?_,
    ⟨(octant.rows low).mpr le_rfl, octant.diagonal⟩, fun p => octant.mem_onCircle⟩,
    octant.closedRing, octant.onCircle_centre, fun p => octant.within_of_reaches,
    fun p => abs_sq_sub_le, fun c color brush width reach isWidth half => ?_⟩
  · rw [octant.octantRowsFrom_eq le_rfl (by omega) (by omega), List.append_nil]
  · have falls := octant.falls nonneg (show y ≤ y + 1 by omega)
    have gentle := octant.gentle nonneg less
    omega
  · rw [← isWidth.brushRadius_eq half]
    exact stamped_drawCircleWith octant c centre color brush

/-- A circle drawn with a brush that reaches one cell beyond it, and not as far as its centre. -/
theorem drawCircle_ring_thick :
    let drawn := (blank 9 .white).drawCircleWith nearestColumn ⟨4, 4⟩ (2 : ℕ) .red 4
    IsWidth 4 3 ∧ drawn.get? ⟨7, 4⟩ = some .red ∧ drawn.get? ⟨4, 4⟩ = some .white := by
  intro drawn
  have isWidth : IsWidth 4 3 := isWidth_brushWidth 4
  obtain ⟨-, -, -, -, near, stamped⟩ := drawCircle_ring 2 ⟨4, 4⟩
  have stamped := stamped (blank 9 .white) .red 4 3 1 isWidth (by decide)
  refine ⟨isWidth, stamped.painted ⟨7, 4⟩ (by decide) ⟨⟨6, 4⟩, ?_, ?_⟩, ?_⟩
  · rw [onCircle_iff]
    exact nearestColumn_zero
  · unfold Point.InDisk
    decide
  · have free := stamped.unchanged ⟨4, 4⟩ ?_
    · rw [free]
      decide
    · rintro ⟨-, p, on, inDisk⟩
      have off := near p on
      have inDisk : (4 - p.x) ^ 2 + (4 - p.y) ^ 2 ≤ 1 := inDisk
      have column : |p.x - 4| ≤ 1 := abs_le_one_iff_mul_self_le_one.mpr (by nlinarith)
      have row : |p.y - 4| ≤ 1 := abs_le_one_iff_mul_self_le_one.mpr (by nlinarith)
      have close : max |p.x - 4| |p.y - 4| ≤ 1 := max_le column row
      have bounds := abs_le.mp (off.trans close)
      norm_num at bounds
      nlinarith

end Canvas

end Easel
