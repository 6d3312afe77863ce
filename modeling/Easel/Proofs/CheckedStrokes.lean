import Easel.Proofs.Checked
import Easel.Proofs.CursorBounds
import Easel.Proofs.Roots
import Easel.Proofs.Walk

/-!
# Strokes on machine words

On a canvas of less than `2 ^ 32` columns and with coordinates of at most 33 bits, no operation of a
stroke leaves the range of machine words, so that strokes are computed there as they are on
unbounded integers. Each routine has its own lemma, with the bounds it needs; those of lines come
from what holds along a walk (`Segment.mem_uIcc_of_mem_walk`), and those of circles from the fact
that in doubles, too, no column lies beyond the radius (`Number.octantColumn_le`).
-/

namespace Easel

/-- A disk is painted offset by offset. -/
lemma Canvas.stampDisk_eq_foldl (c : Canvas) (centre : Point) (radius : Nat) (color : Color) :
    c.stampDisk centre radius color =
      (pointsBetween (max (-radius) (-centre.x)) (min radius (c.size - 1 - centre.x))
        (max (-radius) (-centre.y)) (min radius (c.size - 1 - centre.y))).foldl
        (fun c o => if o.x * o.x + o.y * o.y ≤ (radius : Int) * radius then
          c.set (centre.shift o.x o.y) color else c) c := by
  simp only [stampDisk, paint, disk, List.foldl_map, List.foldl_filter, decide_eq_true_eq]

namespace Checked

/-- Work that goes through a list has a result if each of its steps has, as long as the state is
such that it has. -/
lemma foldlM_eq_some {σ α : Type} {P : σ → Prop} {f : σ → α → Option σ} {g : σ → α → σ}
    {as : List α} (keeps : ∀ s a, P s → P (g s a))
    (step : ∀ s, P s → ∀ a ∈ as, f s a = some (g s a)) :
    ∀ {s}, P s → as.foldlM f s = some (as.foldl g s) := by
  induction as with
  | nil => exact fun _ => rfl
  | cons a as ih =>
    intro s holds
    rw [List.foldlM_cons, step s holds a List.mem_cons_self]
    exact ih (fun s holds b mem => step s holds b (List.mem_cons_of_mem a mem)) (keeps s a holds)

/-- If every element has a result, then so has the list. -/
lemma mapM_eq_some {α β : Type} {f : α → Option β} {g : α → β} {as : List α}
    (step : ∀ a ∈ as, f a = some (g a)) : as.mapM f = some (as.map g) := by
  induction as with
  | nil => rfl
  | cons a as ih =>
    rw [List.mapM_cons, step a List.mem_cons_self,
      ih fun b mem => step b (List.mem_cons_of_mem a mem)]
    rfl

/-- Arguments are words, so that they are read as coordinates without overflow. -/
lemma intAt_eq (arguments : List Value) (index : Nat) :
    intAt arguments index = some (Command.intAt arguments index) := by
  have fits : Number.minInt ≤ (arguments[index]?.bind Value.asInt?).getD 0 ∧
      (arguments[index]?.bind Value.asInt?).getD 0 ≤ Number.maxInt := by
    cases found : arguments[index]?.bind Value.asInt? with
    | none => decide
    | some n =>
      obtain ⟨v, -, given⟩ := Option.bind_eq_some_iff.mp found
      obtain ⟨x, -, rfl⟩ := Option.map_eq_some_iff.mp given
      exact Number.toInt_bounds x
  rw [intAt, word_eq fits.1 fits.2]
  rfl

/-- A product is bounded by the product of the bounds. -/
lemma mul_bounds {a b m n : Int} (ha : -m ≤ a ∧ a ≤ m) (hb : -n ≤ b ∧ b ≤ n) :
    -(m * n) ≤ a * b ∧ a * b ≤ m * n := by
  constructor <;> nlinarith

/-- A step between coordinates is computed without reaching the ends of the range. -/
lemma offset_eq {base direction magnitude : Int} (hb : -2 ^ 32 ≤ base ∧ base ≤ 2 ^ 32)
    (hd : -2 ^ 31 ≤ direction ∧ direction ≤ 2 ^ 31)
    (hm : -2 ^ 31 ≤ magnitude ∧ magnitude ≤ 2 ^ 31) :
    offset base direction magnitude = Easel.offset base direction magnitude := by
  have product := mul_bounds hd hm
  have first : Number.saturate (direction * magnitude) = direction * magnitude :=
    Number.saturate_eq (by simp only [Number.minInt]; omega) (by simp only [Number.maxInt]; omega)
  rw [offset, first, Number.saturate_eq (by simp only [Number.minInt]; omega)
    (by simp only [Number.maxInt]; omega), Easel.offset]

/-- The width of a brush of 32 bits is computed without overflow. -/
lemma brushWidth_eq {size : Int} (low : -2 ^ 31 ≤ size) (high : size ≤ 2 ^ 31) :
    brushWidth size = some (Easel.brushWidth size) := by
  rw [brushWidth, Easel.brushWidth]
  split
  · rw [word_eq (by omega) (by omega)]
    rfl
  · rfl

/-- The least integer of all has no odd one below it. -/
example : brushWidth Number.minInt = none := by decide

/-- The radius of a brush of 32 bits has 30 bits. -/
lemma brushRadius_lt {size : Int} (high : size ≤ 2 ^ 31) : Easel.brushRadius size < 2 ^ 30 := by
  have small := brushWidth_lt high
  rw [Easel.brushRadius]
  omega

/-- The radius of a brush as an integer. -/
lemma natCast_brushRadius (size : Int) :
    (Easel.brushRadius size : Int) = (Easel.brushWidth size - 1).tdiv 2 := by
  obtain ⟨positive, -⟩ := brushWidth_odd size
  rw [Easel.brushRadius, Int.tdiv_eq_ediv_of_nonneg (by omega)]
  omega

/-- The radius of a brush of 32 bits is computed without overflow. -/
lemma brushRadius_eq {size : Int} (low : -2 ^ 31 ≤ size) (high : size ≤ 2 ^ 31) :
    brushRadius size = some (Easel.brushRadius size : Int) := by
  obtain ⟨positive, -⟩ := brushWidth_odd size
  have small := brushWidth_lt high
  rw [brushRadius, brushWidth_eq low high]
  simp (disch := omega) only [Option.bind_eq_bind, Option.bind_some, word_eq]
  rw [← natCast_brushRadius]
  exact word_eq (by omega) (by have := brushRadius_lt high; omega)

/-- A coordinate that instructions work with. -/
def Coordinate (n : Int) : Prop := -2 ^ 31 ≤ n ∧ n ≤ 2 ^ 31

/-- The coordinates of a point are no greater than `b`, in either direction. -/
def Within (b : Int) (p : Point) : Prop := (-b ≤ p.x ∧ p.x ≤ b) ∧ -b ≤ p.y ∧ p.y ≤ b

/-- A point within a bound is within every greater one. -/
lemma Within.mono {a b : Int} {p : Point} (within : Within a p) (le : a ≤ b) : Within b p := by
  obtain ⟨hx, hy⟩ := within
  exact ⟨by omega, by omega⟩

/-- A canvas with fewer than `2 ^ 63` cells has less than `2 ^ 32` columns. -/
lemma size_lt_of_square {size : Nat} (square : size ^ 2 < 2 ^ 63) : size < 2 ^ 32 := by
  by_contra large
  have := Nat.pow_le_pow_left (not_lt.mp large) 2
  omega

section Stamps

variable {c : Canvas} {centre : Point} {radius size : Nat} {color : Color}

/-- The last column of a canvas is computed without overflow. -/
lemma lastOf_eq (small : size < 2 ^ 32) : lastOf size = some ((size : Int) - 1) := by
  simp (disch := omega) only [lastOf, word_eq, Option.bind_eq_bind, Option.bind_some]

/-- The ends of what is within reach of a canvas are computed without overflow. -/
lemma reach_eq (small : size < 2 ^ 32) (narrow : radius < 2 ^ 30) :
    reach size radius = some (reachFirst radius, reachLast size radius) := by
  rw [reach, lastOf_eq small]
  simp (disch := omega) only [word_eq, Option.bind_eq_bind, Option.bind_some, reachFirst, reachLast]
  rfl

/-- A cell of a disk is painted without overflow. -/
lemma stampCell_eq (near : Within (2 ^ 33) centre) (narrow : radius < 2 ^ 30) {o : Point}
    (hx : -radius ≤ o.x ∧ o.x ≤ radius) (hy : -radius ≤ o.y ∧ o.y ≤ radius) :
    stampCell centre radius color c o =
      some (if o.x * o.x + o.y * o.y ≤ (radius : Int) * radius then
        c.set (centre.shift o.x o.y) color else c) := by
  obtain ⟨cx, cy⟩ := near
  have xx := mul_bounds hx hx
  have yy := mul_bounds hy hy
  have square : (radius : Int) * radius ≤ 2 ^ 30 * 2 ^ 30 :=
    (mul_bounds (m := 2 ^ 30) (n := 2 ^ 30) (by omega) (by omega)).2
  simp (disch := omega) only [stampCell, word_eq, Option.bind_eq_bind, Option.bind_some]
  split <;> rfl

/-- A disk is painted without overflow. -/
lemma stampDisk_eq (small : c.size < 2 ^ 32) (near : Within (2 ^ 33) centre)
    (narrow : radius < 2 ^ 30) :
    stampDisk c centre radius color = some (c.stampDisk centre radius color) := by
  obtain ⟨cx, cy⟩ := near
  rw [stampDisk, lastOf_eq small, Canvas.stampDisk_eq_foldl]
  simp (disch := omega) only [word_eq, Option.bind_eq_bind, Option.bind_some]
  refine foldlM_eq_some (P := fun _ => True) (fun _ _ _ => trivial) ?_ trivial
  intro c _ o mem
  rw [mem_pointsBetween] at mem
  exact stampCell_eq ⟨cx, cy⟩ narrow (by omega) (by omega)

/-- A stamp is painted without overflow. -/
lemma stamp_eq {brush : Int} (small : c.size < 2 ^ 32) (near : Within (2 ^ 33) centre)
    (low : -2 ^ 31 ≤ brush) (high : brush ≤ 2 ^ 31) :
    stamp c centre color brush = some (c.stamp centre color brush) := by
  rw [stamp, brushRadius_eq low high]
  exact stampDisk_eq small near (brushRadius_lt high)

/-- A list of disks is painted without overflow. -/
lemma stampAll_eq {centres : List Point} (small : c.size < 2 ^ 32)
    (near : ∀ p ∈ centres, Within (2 ^ 33) p) (narrow : radius < 2 ^ 30) :
    stampAll c centres radius color = some (c.stampAll centres radius color) := by
  refine foldlM_eq_some (P := fun c => c.size < 2 ^ 32) ?_ ?_ small
  · intro c p small
    rwa [Canvas.stampDisk, Canvas.size_paint]
  · intro c small p mem
    exact stampDisk_eq small (near p mem) narrow

end Stamps

section Lines

open Segment

variable {s : Segment}

/-- Both ends of a segment are within the bounds of strokes. -/
def Bounded (s : Segment) : Prop := Within (2 ^ 33) s.start ∧ Within (2 ^ 33) s.stop

/-- The point of a segment at a parameter is rounded to words. -/
def RoundsToWords {K : Type} [Scalar K] (s : Segment) (t : K) : Prop :=
  IsWord (Scalar.round (Scalar.ofInt s.start.x + t * Scalar.ofInt (s.stop.x - s.start.x))) ∧
    IsWord (Scalar.round (Scalar.ofInt s.start.y + t * Scalar.ofInt (s.stop.y - s.start.y)))

/-- Doubles are rounded to words, whatever they are. -/
lemma roundsToWords_float (s : Segment) (t : Float) : RoundsToWords s t :=
  ⟨Number.toInt_bounds _, Number.toInt_bounds _⟩

/-- The cell at a parameter is computed in words. -/
lemma cellAt_eq {K : Type} [Scalar K] {t : K} (words : RoundsToWords s t) (first last : Int) :
    cellAt K s (s.stop.x - s.start.x) (s.stop.y - s.start.y) first last t =
      some (s.cellAt K first last t) := by
  obtain ⟨⟨left, right⟩, top, bottom⟩ := words
  rw [cellAt, word_eq left right, word_eq top bottom]
  rfl

/-- Clipping is computed in words if the differences between the ends of the segment are words, and
where it is cut, it is rounded to words. -/
lemma clip?_eq {K : Type} [Scalar K] {first last : Int} (dx : IsWord (s.stop.x - s.start.x))
    (dy : IsWord (s.stop.y - s.start.y))
    (words : ∀ stretch, s.stretch? K first last = some stretch →
      RoundsToWords s stretch.enter ∧ RoundsToWords s stretch.leave) :
    clip? K s first last = some (s.clip? K first last) := by
  rw [clip?, Segment.clip?]
  split
  · rfl
  · simp only [word_eq dx.1 dx.2, word_eq dy.1 dy.2, Option.bind_eq_bind, Option.bind_some]
    cases found : s.stretch? K first last with
    | none => rfl
    | some stretch =>
      obtain ⟨enter, leave⟩ := words stretch found
      simp only [cellAt_eq enter, cellAt_eq leave, Option.map_some]
      split <;> split <;> rfl

/-- Within the bounds of strokes, clipping in doubles is computed in words. -/
lemma clip?_float_eq (bounded : Bounded s) (first last : Int) :
    clip? Float s first last = some (s.clip? Float first last) := by
  obtain ⟨⟨startX, startY⟩, stopX, stopY⟩ := bounded
  refine clip?_eq (isWord_iff.mpr (by omega)) (isWord_iff.mpr (by omega)) ?_
  exact fun stretch _ => ⟨roundsToWords_float s _, roundsToWords_float s _⟩

/-- A cell that clipping finds is in the square. -/
lemma within_cellAt {first last b : Int} (order : first ≤ last) (low : -b ≤ first)
    (high : last ≤ b) (t : Float) : Within b (s.cellAt Float first last t) := by
  simp only [Within, Segment.cellAt, clamp]
  omega

/-- What is left of a segment after clipping is within the same bounds. -/
lemma bounded_clip {s' : Segment} {first last : Int} (bounded : Bounded s) (low : -2 ^ 33 ≤ first)
    (high : last ≤ 2 ^ 33) (clipped : s.clip? Float first last = some s') : Bounded s' := by
  rw [Segment.clip?] at clipped
  split at clipped
  · cases clipped
  · next order =>
    obtain ⟨stretch, -, rfl⟩ := Option.map_eq_some_iff.mp clipped
    have cell := within_cellAt (s := s) (not_lt.mp order) low high
    constructor
    · simp only
      split
      · exact cell _
      · exact bounded.1
    · simp only
      split
      · exact cell _
      · exact bounded.2

/-- The walk along a segment within the bounds of strokes is computed in words. -/
lemma Bounded.walkable (bounded : Bounded s) : Walkable s := by
  obtain ⟨⟨startX, startY⟩, stopX, stopY⟩ := bounded
  refine ⟨?_, ?_, by rw [width]; omega, by rw [height]; omega⟩ <;> simp only [isWord_iff] <;> omega

/-- The points of a walk are within the bounds of its segment. -/
lemma within_walk (bounded : Bounded s) : ∀ p ∈ s.walk, Within (2 ^ 33) p := by
  obtain ⟨⟨startX, startY⟩, stopX, stopY⟩ := bounded
  intro p mem
  obtain ⟨x, y⟩ := mem_uIcc_of_mem_walk mem
  rw [Set.mem_uIcc] at x y
  simp only [Within]
  omega

/-- A line is drawn without overflow if its ends are not too far away. -/
lemma drawLine_eq {c : Canvas} {color : Color} {brush : Int} (small : c.size < 2 ^ 32)
    (bounded : Bounded s) (low : -2 ^ 31 ≤ brush) (high : brush ≤ 2 ^ 31) :
    drawLine c s color brush = some (c.drawLineIn Float s color brush) := by
  have narrow := brushRadius_lt high
  rw [drawLine, brushRadius_eq low high, Canvas.drawLineIn, Canvas.lineCentres]
  simp only [Option.bind_eq_bind, Option.bind_some, reach_eq small narrow, clip?_float_eq bounded]
  cases clipped : s.clip? Float _ _ with
  | none => rfl
  | some s' =>
    have bounded' : Bounded s' := bounded_clip bounded (by simp only [reachFirst]; omega)
      (by simp only [reachLast]; omega) clipped
    simp only [walk_eq bounded'.walkable, Option.bind_some]
    exact stampAll_eq small (within_walk bounded') narrow

/-- The edges of a rectangle are computed without overflow. -/
lemma rectangleEdges_eq {centre : Point} {width height : Int} (near : Within (2 ^ 32) centre)
    (hw : 0 < width ∧ width ≤ 2 ^ 31) (hh : 0 < height ∧ height ≤ 2 ^ 31) :
    rectangleEdges centre width height = some (Canvas.rectangleEdges centre width height) := by
  obtain ⟨cx, cy⟩ := near
  have halfWidth : width.tdiv 2 = width / 2 := Int.tdiv_eq_ediv_of_nonneg (by omega)
  have halfHeight : height.tdiv 2 = height / 2 := Int.tdiv_eq_ediv_of_nonneg (by omega)
  rw [rectangleEdges, Canvas.rectangleEdges, halfWidth, halfHeight]
  simp (disch := omega) only [word_eq, Option.bind_eq_bind, Option.bind_some]
  rfl

/-- The edges of a rectangle are not too far away to be drawn. -/
lemma bounded_rectangleEdges {centre : Point} {width height : Int} (near : Within (2 ^ 32) centre)
    (hw : 0 < width ∧ width ≤ 2 ^ 31) (hh : 0 < height ∧ height ≤ 2 ^ 31) :
    ∀ edge ∈ Canvas.rectangleEdges centre width height, Bounded edge := by
  obtain ⟨cx, cy⟩ := near
  have halfWidth : width.tdiv 2 = width / 2 := Int.tdiv_eq_ediv_of_nonneg (by omega)
  have halfHeight : height.tdiv 2 = height / 2 := Int.tdiv_eq_ediv_of_nonneg (by omega)
  simp only [Canvas.rectangleEdges, halfWidth, halfHeight, List.forall_mem_cons,
    List.not_mem_nil, false_implies, implies_true, and_true, Bounded, Within]
  omega

/-- A rectangle is drawn without overflow. -/
lemma drawRectangle_eq {c : Canvas} {centre : Point} {width height brush : Int} {color : Color}
    (small : c.size < 2 ^ 32) (near : Within (2 ^ 32) centre) (hw : width ≤ 2 ^ 31)
    (hh : height ≤ 2 ^ 31) (low : -2 ^ 31 ≤ brush) (high : brush ≤ 2 ^ 31) :
    drawRectangle c centre width height color brush =
      some (c.drawRectangleIn Float centre width height color brush) := by
  rw [drawRectangle, Canvas.drawRectangleIn]
  split
  · rfl
  · next positive =>
    push Not at positive
    rw [rectangleEdges_eq near (by omega) (by omega), Option.bind_eq_bind, Option.bind_some]
    have bounded : ∀ edge ∈ Canvas.rectangleEdges centre width height, Bounded edge :=
      bounded_rectangleEdges near (by omega) (by omega)
    refine foldlM_eq_some (P := fun c => c.size < 2 ^ 32) ?_ ?_ small
    · intro c edge small
      rwa [(c.painted_drawLineIn color brush Float edge).size_eq]
    · intro c small edge mem
      exact drawLine_eq small (bounded edge mem) low high

end Lines

section Circles

variable {centre : Point} {radius : Int}

/-- The column of a circle in a row is computed without overflow. -/
lemma octantColumn_eq {y : Int} (hr : 0 ≤ radius ∧ radius ≤ 2 ^ 31) (hy : 0 ≤ y ∧ y ≤ 2 ^ 40) :
    octantColumn radius y = some (Easel.octantColumn radius y) := by
  have rr := mul_bounds (m := 2 ^ 31) (n := 2 ^ 31) (by omega : -2 ^ 31 ≤ radius ∧ radius ≤ 2 ^ 31)
    (by omega : -2 ^ 31 ≤ radius ∧ radius ≤ 2 ^ 31)
  have yy := mul_bounds (m := 2 ^ 40) (n := 2 ^ 40) (by omega : -2 ^ 40 ≤ y ∧ y ≤ 2 ^ 40)
    (by omega : -2 ^ 40 ≤ y ∧ y ≤ 2 ^ 40)
  have fits : word (Easel.octantColumn radius y) = some (Easel.octantColumn radius y) := by
    rw [Easel.octantColumn]
    split
    · rfl
    · exact word_eq (Number.toInt_bounds _).1 (Number.toInt_bounds _).2
  rw [octantColumn, wide_eq (by omega) (by omega), wide_eq (by omega) (by omega)]
  simp only [Option.bind_eq_bind, Option.bind_some]
  rw [wide_eq (by omega) (by omega), Option.bind_some, fits]

/-- The windows of rows on both sides of a coordinate are computed without overflow. -/
lemma bothSides_eq {first last c : Int} (hf : -2 ^ 34 ≤ first ∧ first ≤ 2 ^ 34)
    (hl : -2 ^ 34 ≤ last ∧ last ≤ 2 ^ 34) (hc : -2 ^ 34 ≤ c ∧ c ≤ 2 ^ 34) :
    bothSides first last c = some [⟨first - c, last - c⟩, ⟨c - last, c - first⟩] := by
  simp (disch := omega) only [bothSides, word_eq, Option.bind_eq_bind, Option.bind_some]
  rfl

/-- The windows of rows around a centre are computed without overflow. -/
lemma around_eq {first last : Int} (hf : -2 ^ 34 ≤ first ∧ first ≤ 2 ^ 34)
    (hl : -2 ^ 34 ≤ last ∧ last ≤ 2 ^ 34) (near : Within (2 ^ 34) centre) :
    around centre first last = some (Window.around centre first last) := by
  rw [around, bothSides_eq hf hl near.1, bothSides_eq hf hl near.2]
  rfl

/-- A window that has rows, within bounds. -/
def Open (w : Window) : Prop := 0 ≤ w.first ∧ w.first ≤ w.last ∧ w.last ≤ 2 ^ 36

/-- The windows of rows around a centre are not too large to be walked. -/
lemma open_around {first last : Int} (hf : -2 ^ 34 ≤ first ∧ first ≤ 2 ^ 34)
    (hl : -2 ^ 34 ≤ last ∧ last ≤ 2 ^ 34) (near : Within (2 ^ 34) centre) :
    ∀ w ∈ Window.around centre first last, Open w := by
  obtain ⟨hx, hy⟩ := near
  intro w mem
  simp only [Window.around, List.mem_mergeSort, List.mem_filter, List.mem_map, List.mem_append,
    List.mem_cons, List.not_mem_nil, or_false, decide_eq_true_eq] at mem
  obtain ⟨⟨v, side, rfl⟩, rows⟩ := mem
  rcases side with (rfl | rfl) | (rfl | rfl) <;> simp only [Open] at rows ⊢ <;> omega

/-- The rows of an octant from one on are collected without overflow. -/
lemma octantRowsFrom_eq (hr : 0 ≤ radius ∧ radius ≤ 2 ^ 31) {n : Nat} :
    ∀ {y : Int} (visited : List Int), 0 ≤ y → y + n ≤ 2 ^ 40 →
      octantRowsFrom radius n y visited =
        some (Easel.octantRowsFrom (Easel.octantColumn radius) n y visited) := by
  induction n with
  | zero => exact fun _ _ _ => rfl
  | succ n ih =>
    intro y visited low high
    rw [octantRowsFrom, octantColumn_eq hr (by omega), Easel.octantRowsFrom, Option.bind_eq_bind,
      Option.bind_some]
    split
    · rfl
    · rw [word_eq (by omega) (by omega), Option.bind_some]
      exact ih (y :: visited) (by omega) (by omega)

/-- The rows of an octant in some windows are collected without overflow. -/
lemma octantRows_eq (hr : 0 ≤ radius ∧ radius ≤ 2 ^ 31) {windows : List Window} :
    ∀ {next : Int} (visited : List Int), (∀ w ∈ windows, Open w) →
      0 ≤ next → next ≤ 2 ^ 37 →
      octantRows radius windows next visited =
        some (Easel.octantRows (Easel.octantColumn radius) windows next visited) := by
  induction windows with
  | nil => exact fun _ _ _ _ => rfl
  | cons w windows ih =>
    intro next visited opens low high
    obtain ⟨⟨first, last, bound⟩, others⟩ := List.forall_mem_cons.mp opens
    rw [octantRows, Easel.octantRows, word_eq (by omega) (by omega), Option.bind_eq_bind,
      Option.bind_some, octantRowsFrom_eq hr visited (by omega) (by omega), Option.bind_eq_bind,
      Option.bind_some]
    rcases Easel.octantRowsFrom (Easel.octantColumn radius) (w.last + 1 - max w.first next).toNat
      (max w.first next) visited with ⟨visited', _ | _⟩
    · exact ih visited' others (by omega) (by omega)
    · rfl

/-- A point is moved without overflow. -/
lemma shift_eq {p : Point} {dx dy : Int} (near : Within (2 ^ 33) p)
    (hx : -2 ^ 33 ≤ dx ∧ dx ≤ 2 ^ 33) (hy : -2 ^ 33 ≤ dy ∧ dy ≤ 2 ^ 33) :
    shift p dx dy = some (p.shift dx dy) := by
  obtain ⟨px, py⟩ := near
  simp (disch := omega) only [shift, word_eq, Option.bind_eq_bind, Option.bind_some]
  rfl

/-- The eight reflections of a point are computed without overflow. -/
lemma reflections_eq {x y : Int} (near : Within (2 ^ 31) centre) (hx : -2 ^ 31 ≤ x ∧ x ≤ 2 ^ 31)
    (hy : -2 ^ 31 ≤ y ∧ y ≤ 2 ^ 31) :
    reflections centre x y = some (Easel.reflections centre x y) := by
  obtain ⟨cx, cy⟩ := near
  rw [reflections, word_eq (by omega) (by omega), word_eq (by omega) (by omega)]
  refine mapM_eq_some (g := fun d : Int × Int => centre.shift d.1 d.2) ?_
  simp only [List.forall_mem_cons, List.not_mem_nil, false_implies, implies_true, and_true]
  refine ⟨?_, ?_, ?_, ?_, ?_, ?_, ?_, ?_⟩ <;>
    exact shift_eq ⟨by omega, by omega⟩ (by omega) (by omega)

/-- The reflections of an offset of 32 bits are not far from the centre. -/
lemma within_reflections {x y : Int} (near : Within (2 ^ 31) centre)
    (hx : -2 ^ 31 ≤ x ∧ x ≤ 2 ^ 31) (hy : -2 ^ 31 ≤ y ∧ y ≤ 2 ^ 31) :
    ∀ p ∈ Easel.reflections centre x y, Within (2 ^ 33) p := by
  obtain ⟨cx, cy⟩ := near
  simp only [Easel.reflections, Point.shift, List.forall_mem_cons, List.not_mem_nil, false_implies,
    implies_true, and_true, Within]
  omega

/-- Whether a circle is within reach is computed without overflow. -/
lemma circleInReach_eq {size brush : Nat} (small : size < 2 ^ 32) (narrow : brush < 2 ^ 30)
    (near : Within (2 ^ 31) centre) (hr : 0 ≤ radius ∧ radius ≤ 2 ^ 31) :
    circleInReach size centre radius brush =
      some (Easel.circleInReach size centre radius brush) := by
  obtain ⟨cx, cy⟩ := near
  simp (disch := omega) only [circleInReach, word_eq, Option.bind_eq_bind, Option.bind_some]
  rfl

/-- The rows of an eighth of a circle and their columns are within the radius. -/
lemma row_bounds (hr : 0 ≤ radius ∧ radius ≤ 2 ^ 31) {windows : List Window} {y : Int}
    (mem : y ∈ Easel.octantRows (Easel.octantColumn radius) windows 0 []) :
    (0 ≤ y ∧ y ≤ 2 ^ 31) ∧
      -2 ^ 31 ≤ Easel.octantColumn radius y ∧ Easel.octantColumn radius y ≤ 2 ^ 31 := by
  have inside := le_octantRows le_rfl (List.forall_mem_nil _) y mem
  have column := Number.octantColumn_le y hr.1 hr.2
  omega

/-- The points at which a circle is stamped are computed without overflow. -/
lemma circleCentres_eq {size brush : Nat} (small : size < 2 ^ 32) (narrow : brush < 2 ^ 30)
    (near : Within (2 ^ 31) centre) (hr : 0 ≤ radius ∧ radius ≤ 2 ^ 31) :
    circleCentres size centre radius brush =
      some (Easel.circleCentres Easel.octantColumn size centre radius brush) := by
  have near' : Within (2 ^ 34) centre := by
    obtain ⟨cx, cy⟩ := near
    exact ⟨by omega, by omega⟩
  have first : -2 ^ 34 ≤ reachFirst brush ∧ reachFirst brush ≤ 2 ^ 34 := by
    simp only [reachFirst]
    omega
  have last : -2 ^ 34 ≤ reachLast size brush ∧ reachLast size brush ≤ 2 ^ 34 := by
    simp only [reachLast]
    omega
  rw [circleCentres, circleInReach_eq small narrow near hr, Easel.circleCentres,
    Option.bind_eq_bind, Option.bind_some]
  split
  · have opens := open_around first last near'
    simp only [reach_eq small narrow, around_eq first last near',
      octantRows_eq hr [] opens le_rfl (by omega), Option.bind_eq_bind, Option.bind_some]
    -- rows are not greater than their columns, which are not greater than the radius
    rw [mapM_eq_some (g := fun y => Easel.reflections centre (Easel.octantColumn radius y) y)]
    · rw [Option.bind_some, List.flatMap_def]
      rfl
    · intro y mem
      obtain ⟨hy, hx⟩ := row_bounds hr mem
      rw [octantColumn_eq hr (by omega), Option.bind_some]
      exact reflections_eq near hx (by omega)
  · rfl

/-- The points at which a circle is stamped are not far away. -/
lemma within_circleCentres {size brush : Nat} (near : Within (2 ^ 31) centre)
    (hr : 0 ≤ radius ∧ radius ≤ 2 ^ 31) :
    ∀ p ∈ Easel.circleCentres Easel.octantColumn size centre radius brush, Within (2 ^ 33) p := by
  intro p mem
  rw [Easel.circleCentres] at mem
  split at mem
  · obtain ⟨y, row, mem⟩ := List.mem_flatMap.mp mem
    obtain ⟨hy, hx⟩ := row_bounds hr row
    exact within_reflections near hx (by omega) p mem
  · cases mem

/-- A circle is drawn without overflow. -/
lemma drawCircle_eq {c : Canvas} {color : Color} {brush : Int} (small : c.size < 2 ^ 32)
    (near : Within (2 ^ 31) centre) (hr : -2 ^ 31 ≤ radius ∧ radius ≤ 2 ^ 31)
    (low : -2 ^ 31 ≤ brush) (high : brush ≤ 2 ^ 31) :
    drawCircle c centre radius color brush = some (c.drawCircle centre radius color brush) := by
  have hr' : 0 ≤ (radius.natAbs : Int) ∧ (radius.natAbs : Int) ≤ 2 ^ 31 := by omega
  have narrow := brushRadius_lt high
  rw [drawCircle, word_eq (by omega) (by omega), brushRadius_eq low high]
  simp only [Option.bind_eq_bind, Option.bind_some, circleCentres_eq small narrow near hr']
  exact stampAll_eq small (within_circleCentres near hr') narrow

end Circles

section Filling

/-- Filling goes on from a stack of points without overflow. -/
lemma fillFrom_eq {target color : Color} (distinct : color ≠ target) (c : Canvas)
    (stack : List Point) :
    c.size < 2 ^ 32 → fillFrom distinct c stack = some (c.fillFrom distinct stack) := by
  fun_induction Canvas.fillFrom distinct c stack with
  | case1 c =>
    intro _
    rw [fillFrom]
  | case2 c p stack here fewer ih =>
    intro small
    have inside : (c.get? p).isSome := by rw [here]; rfl
    obtain ⟨hx, hy⟩ := Canvas.isSome_get?.mp inside
    have near : Within (2 ^ 33) p := ⟨by omega, by omega⟩
    rw [fillFrom, dif_pos here]
    simp (disch := omega) only [shift_eq near, Option.bind_eq_bind, Option.bind_some]
    exact ih (by rwa [Canvas.size_set])
  | case3 c p stack elsewhere ih =>
    intro small
    rw [fillFrom, dif_neg elsewhere]
    exact ih small

/-- An area is filled without overflow, wherever the filling begins. -/
lemma floodFill_eq {c : Canvas} (small : c.size < 2 ^ 32) (seed : Point) (color : Color) :
    floodFill c seed color = some (c.floodFill seed color) := by
  rw [floodFill, Canvas.floodFill]
  cases c.get? seed with
  | none => rfl
  | some target =>
    simp only
    split
    · rfl
    · exact fillFrom_eq _ c [seed] small

/-- The cells of a color are counted without overflow. -/
lemma colorCount_eq {c : Canvas} (small : c.size < 2 ^ 32) (color : Color) (p q : Point) :
    colorCount c color p q = some (c.colorCount color p q) := by
  rw [colorCount, lastOf_eq small]
  rfl

end Filling

end Checked

end Easel
