import Easel.Canvas.Circle
import Easel.Canvas.Fill
import Easel.Canvas.Stroke
import Mathlib.Tactic.Lemma

/-!
# Painting cell by cell

Whatever is drawn on a canvas, it is painted cell by cell (`Canvas.Painted`): brush stamps, lines,
circles, the borders of rectangles, and fillings. So what outlasts the painting of a single cell
outlasts all of them, as the size of the canvas does (`Canvas.Painted.size_eq`).
-/

namespace Easel.Canvas

/-- What a canvas can become by painting cells. -/
inductive Painted (c : Canvas) : Canvas → Prop where
  | same :
    Painted c c
  | set {c'} (p : Point) (color : Color) :
    Painted c c' →
    Painted c (c'.set p color)

namespace Painted

variable {c c' c'' : Canvas}

/-- Painting can go on where it ended. -/
lemma trans (first : Painted c c') (rest : Painted c' c'') : Painted c c'' := by
  induction rest with
  | same => exact first
  | set p color _ ih => exact .set p color ih

/-- Painting keeps the size of the canvas. -/
lemma size_eq (painted : Painted c c') : c'.size = c.size := by
  induction painted with
  | same => rfl
  | set p color _ ih => rw [size_set, ih]

/-- Painting keeps the background of the canvas. -/
lemma background_eq (painted : Painted c c') : c'.background = c.background := by
  induction painted with
  | same => rfl
  | set p color _ ih => rw [background_set, ih]

/-- Work in many steps paints cell by cell if each step does. -/
lemma foldl {α : Type} {f : Canvas → α → Canvas} (step : ∀ c a, Painted c (f c a)) (as : List α) :
    ∀ c, Painted c (as.foldl f c) := by
  induction as with
  | nil => exact fun c => .same
  | cons a as ih => exact fun c => (step c a).trans (ih (f c a))

end Painted

/-- Painting a list of points is painting cell by cell. -/
lemma painted_paint (c : Canvas) (points : List Point) (color : Color) :
    Painted c (c.paint points color) :=
  .foldl (fun _ p => .set p color .same) points c

/-- Stamping is painting cell by cell, wherever the stamps are. -/
lemma painted_stampAll (c : Canvas) (centres : List Point) (radius : Nat) (color : Color) :
    Painted c (c.stampAll centres radius color) :=
  .foldl (fun c _ => c.painted_paint _ color) centres c

section Strokes

variable (c : Canvas) (centre : Point) (color : Color) (brush : Int)

/-- Drawing a line is painting cell by cell. -/
lemma painted_drawLineIn (K : Type) [Scalar K] (s : Segment) :
    Painted c (c.drawLineIn K s color brush) :=
  c.painted_stampAll _ _ color

/-- Drawing a rectangle is painting cell by cell. -/
lemma painted_drawRectangleIn (K : Type) [Scalar K] (width height : Int) :
    Painted c (c.drawRectangleIn K centre width height color brush) := by
  rw [drawRectangleIn]
  split
  · exact .same
  · exact .foldl (fun c edge => c.painted_drawLineIn color brush K edge) _ c

/-- Drawing a circle is painting cell by cell. -/
lemma painted_drawCircle (radius : Int) : Painted c (c.drawCircle centre radius color brush) :=
  c.painted_stampAll _ _ color

end Strokes

/-- Filling from a stack of points is painting cell by cell. -/
lemma painted_fillFrom {target color : Color} (distinct : color ≠ target) (c : Canvas)
    (stack : List Point) : Painted c (fillFrom distinct c stack) := by
  fun_induction fillFrom distinct c stack with
  | case1 c => exact .same
  | case2 c p stack here fewer ih => exact (Painted.set p color .same).trans ih
  | case3 c p stack elsewhere ih => exact ih

/-- Filling an area is painting cell by cell. -/
lemma painted_floodFill (c : Canvas) (seed : Point) (color : Color) :
    Painted c (c.floodFill seed color) := by
  rw [floodFill]
  split
  · exact .same
  · split
    · exact .same
    · exact painted_fillFrom _ c _

end Easel.Canvas
