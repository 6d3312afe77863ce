import Easel.Proofs.StraightLines

/-!
# The borders of rectangles

A rectangle is drawn by four lines, each along a row or a column. Their walks pass the border of its
box and no other cell (`Canvas.mem_edges_iff`), also if the box is a single row or column, where
edges go over one another. So what is painted are the disks around the cells of the border
(`Canvas.drawRectangle_border`).
-/

namespace Easel

/-- A point is on the border of the box between two columns and two rows. -/
def Point.OnBorder (p : Point) (left top right bottom : ℤ) : Prop :=
  ((left ≤ p.x ∧ p.x ≤ right) ∧ top ≤ p.y ∧ p.y ≤ bottom) ∧
    ((p.x = left ∨ p.x = right) ∨ p.y = top ∨ p.y = bottom)

namespace Direction

/-- The direction along rows. -/
def right : Direction := ⟨1, 0, by decide, by decide⟩

/-- The direction along columns. -/
def down : Direction := ⟨0, 1, by decide, by decide⟩

/-- A level segment is a line to the right. -/
lemma level_eq_line (x x' y : ℤ) : (⟨⟨x, y⟩, ⟨x', y⟩⟩ : Segment) = right.line ⟨x, y⟩ (x' - x) := by
  simp [line, ahead, right]

/-- An upright segment is a line down. -/
lemma upright_eq_line (x y y' : ℤ) : (⟨⟨x, y⟩, ⟨x, y'⟩⟩ : Segment) = down.line ⟨x, y⟩ (y' - y) := by
  simp [line, ahead, down]

variable {p : Point} {x x' y y' : ℤ}

/-- The walk along a level segment passes all columns between its ends. -/
lemma mem_walk_level :
    p ∈ (⟨⟨x, y⟩, ⟨x', y⟩⟩ : Segment).walk ↔ p.x ∈ Set.uIcc x x' ∧ p.y = y := by
  obtain ⟨px, py⟩ := p
  rw [level_eq_line, mem_walk_line]
  simp only [ahead, right, Set.mem_uIcc, Point.mk.injEq, mul_one, mul_zero, add_zero]
  constructor
  · rintro ⟨k, between, rfl, rfl⟩
    omega
  · rintro ⟨between, rfl⟩
    exact ⟨px - x, by omega, by omega, rfl⟩

/-- The walk along an upright segment passes all rows between its ends. -/
lemma mem_walk_upright :
    p ∈ (⟨⟨x, y⟩, ⟨x, y'⟩⟩ : Segment).walk ↔ p.y ∈ Set.uIcc y y' ∧ p.x = x := by
  obtain ⟨px, py⟩ := p
  rw [upright_eq_line, mem_walk_line]
  simp only [ahead, down, Set.mem_uIcc, Point.mk.injEq, mul_one, mul_zero, add_zero]
  constructor
  · rintro ⟨k, between, rfl, rfl⟩
    omega
  · rintro ⟨between, rfl⟩
    exact ⟨py - y, by omega, rfl, by omega⟩

end Direction

namespace Canvas

variable {K : Type} [Scalar K] {c : Canvas} {centre p : Point} {width height : ℤ} {color : Color}
  {brush : Int}

/-- The edges of a rectangle pass its border. -/
lemma mem_edges_iff (wide : 0 < width) (high : 0 < height) :
    (∃ edge ∈ rectangleEdges centre width height, p ∈ edge.walk) ↔
      p.OnBorder (centre.x - width / 2) (centre.y - height / 2)
        (centre.x - width / 2 + width - 1) (centre.y - height / 2 + height - 1) := by
  simp only [rectangleEdges, List.mem_cons, List.not_mem_nil, or_false, exists_eq_or_imp,
    exists_eq_left, Direction.mem_walk_level, Direction.mem_walk_upright, Set.mem_uIcc,
    Int.tdiv_eq_ediv_of_nonneg wide.le, Int.tdiv_eq_ediv_of_nonneg high.le, Point.OnBorder]
  omega

/-- Every edge is a line along a row or a column. -/
lemma exists_line {edge : Segment} (mem : edge ∈ rectangleEdges centre width height) :
    ∃ (d : Direction) (p : Point) (n : ℤ), edge = d.line p n := by
  simp only [rectangleEdges, List.mem_cons, List.not_mem_nil, or_false] at mem
  rcases mem with rfl | rfl | rfl | rfl
  · exact ⟨_, _, _, Direction.level_eq_line ..⟩
  · exact ⟨_, _, _, Direction.upright_eq_line ..⟩
  · exact ⟨_, _, _, Direction.level_eq_line ..⟩
  · exact ⟨_, _, _, Direction.upright_eq_line ..⟩

/-- A rectangle is drawn as by the whole walks of its edges, if each edge is drawn so. -/
lemma drawRectangleIn_eq_plain (wide : 0 < width) (high : 0 < height)
    (plain : ∀ edge ∈ rectangleEdges centre width height, ∀ c : Canvas,
      c.drawLineIn K edge color brush = c.drawPlainLine edge color brush) :
    c.drawRectangleIn K centre width height color brush =
      c.stampAll ((rectangleEdges centre width height).flatMap Segment.walk)
        (brushRadius brush) color := by
  rw [drawRectangleIn, if_neg (by omega),
    List.foldl_ext _ _ c fun c edge mem => plain edge mem c]
  exact (List.foldl_flatMap ..).symm

/-- Clipping leaves out nothing of a rectangle if it makes no errors. -/
lemma drawRectangleIn_exact (wide : 0 < width) (high : 0 < height) :
    c.drawRectangleIn ℚ centre width height color brush =
      c.stampAll ((rectangleEdges centre width height).flatMap Segment.walk)
        (brushRadius brush) color := by
  refine drawRectangleIn_eq_plain wide high fun edge mem c => ?_
  obtain ⟨d, p, n, rfl⟩ := exists_line mem
  exact c.drawLineIn_line d p n color brush

/-- So it does in doubles, if the corners are of 32 bits. -/
lemma drawRectangle_doubles (wide : 0 < width) (high : 0 < height) (narrow : brush ≤ 2 ^ 31)
    (corners : ∀ edge ∈ rectangleEdges centre width height,
      (|edge.start.x| ≤ 2 ^ 31 ∧ |edge.start.y| ≤ 2 ^ 31) ∧
        |edge.stop.x| ≤ 2 ^ 31 ∧ |edge.stop.y| ≤ 2 ^ 31) :
    c.drawRectangle centre width height color brush =
      c.stampAll ((rectangleEdges centre width height).flatMap Segment.walk)
        (brushRadius brush) color := by
  refine drawRectangleIn_eq_plain wide high fun edge mem c => ?_
  have bounds := corners edge mem
  obtain ⟨d, p, n, rfl⟩ := exists_line mem
  exact c.drawLine_line d p n color brush bounds.1 bounds.2 narrow

/-- A rectangle paints the disks around the cells on the border of its box and nothing else,
wherever the box is and however large or thin. The radius of the disks is what the width of the
brush has on each side of the centre. This is so if clipping makes no errors, and doubles draw the
same if the corners of the box are of 32 bits. -/
theorem drawRectangle_border (c : Canvas) (centre : Point) (width height : ℤ) (color : Color)
    (brush : Int) (wide : 0 < width) (high : 0 < height) {brushSpan : ℤ} {radius : ℕ}
    (isWidth : IsWidth brush brushSpan) (half : (radius : ℤ) = (brushSpan - 1) / 2) :
    let left := centre.x - width / 2
    let top := centre.y - height / 2
    let right := left + width - 1
    let bottom := top + height - 1
    c.Stamped (fun p => p.OnBorder left top right bottom) radius color
        (c.drawRectangleIn ℚ centre width height color brush) ∧
      ((|left| ≤ 2 ^ 31 ∧ |top| ≤ 2 ^ 31) ∧ |right| ≤ 2 ^ 31 ∧ |bottom| ≤ 2 ^ 31 →
        brush ≤ 2 ^ 31 →
        c.drawRectangle centre width height color brush =
          c.drawRectangleIn ℚ centre width height color brush) := by
  intro left top right bottom
  rw [drawRectangleIn_exact wide high, ← isWidth.brushRadius_eq half]
  refine ⟨(c.stamped_stampAll _ _ _).congr fun p => ?_, fun corners narrow => ?_⟩
  · rw [List.mem_flatMap]
    exact mem_edges_iff wide high
  · refine drawRectangle_doubles wide high narrow fun edge mem => ?_
    simp only [rectangleEdges, Int.tdiv_eq_ediv_of_nonneg wide.le,
      Int.tdiv_eq_ediv_of_nonneg high.le, List.mem_cons, List.not_mem_nil, or_false] at mem
    obtain ⟨⟨left, top⟩, right, bottom⟩ := corners
    rcases mem with rfl | rfl | rfl | rfl
    · exact ⟨⟨left, top⟩, right, top⟩
    · exact ⟨⟨right, top⟩, right, bottom⟩
    · exact ⟨⟨right, bottom⟩, left, bottom⟩
    · exact ⟨⟨left, bottom⟩, left, top⟩

/-- A box of four columns and one row, the first two columns of which are off the canvas, drawn with
a brush that reaches one cell beyond it. -/
theorem drawRectangle_border_thin :
    let drawn := (blank 5 .white).drawRectangle ⟨0, 2⟩ 4 1 .red 4
    IsWidth 4 3 ∧ drawn.get? ⟨2, 2⟩ = some .red ∧ drawn.get? ⟨1, 3⟩ = some .red ∧
      drawn.get? ⟨2, 3⟩ = some .white := by
  intro drawn
  have isWidth : IsWidth 4 3 := isWidth_brushWidth 4
  obtain ⟨stamped, same⟩ := drawRectangle_border (blank 5 .white) ⟨0, 2⟩ 4 1 .red 4
    (by decide) (by decide) isWidth (show ((1 : ℕ) : ℤ) = (3 - 1) / 2 by decide)
  rw [← same (by decide) (by decide)] at stamped
  have end_on : Point.OnBorder ⟨1, 2⟩ (-2) 2 1 2 := by
    unfold Point.OnBorder
    decide
  refine ⟨isWidth, stamped.painted ⟨2, 2⟩ (by decide) ⟨⟨1, 2⟩, end_on, ?_⟩,
    stamped.painted ⟨1, 3⟩ (by decide) ⟨⟨1, 2⟩, end_on, ?_⟩, ?_⟩
  · unfold Point.InDisk
    decide
  · unfold Point.InDisk
    decide
  · have free := stamped.unchanged ⟨2, 3⟩ ?_
    · rw [free]
      decide
    · rintro ⟨-, p, ⟨⟨⟨-, right⟩, -, bottom⟩, -⟩, near⟩
      have right : p.x ≤ 1 := right
      have bottom : p.y ≤ 2 := bottom
      have near : (2 - p.x) ^ 2 + (3 - p.y) ^ 2 ≤ 1 := near
      nlinarith

end Canvas

end Easel
