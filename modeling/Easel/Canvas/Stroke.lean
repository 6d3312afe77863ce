import Easel.Brush
import Easel.Segment

/-!
# Straight strokes

Lines and the borders of rectangles, drawn with a brush. A line is first cut to the part from
which the brush can touch the canvas, so that what lies far off costs nothing.
-/

namespace Easel.Canvas

/-- The cells at which a line is stamped on a canvas of the given size, with the arithmetic of
clipping left open. -/
def lineCentres (K : Type) [Scalar K] (size : Nat) (s : Segment) (radius : Nat) : List Point :=
  match s.clip? K (reachFirst radius) (reachLast size radius) with
  | some clipped => clipped.walk
  | none => []

/-- Draws a line, with the arithmetic of clipping left open. -/
def drawLineIn (K : Type) [Scalar K] (c : Canvas) (s : Segment) (color : Color) (brush : Int) :
    Canvas :=
  let radius := brushRadius brush
  c.stampAll (lineCentres K c.size s radius) radius color

/-- Draws a line between two points, both included. -/
def drawLine (c : Canvas) (s : Segment) (color : Color) (brush : Int) : Canvas :=
  c.drawLineIn Float s color brush

/-- The four edges of the border of a rectangle around a centre, each from corner to corner. For an
even width or height the additional column or row is on the right or at the bottom. -/
def rectangleEdges (centre : Point) (width height : Int) : List Segment :=
  let left := centre.x - width.tdiv 2
  let top := centre.y - height.tdiv 2
  let right := left + width - 1
  let bottom := top + height - 1
  [⟨⟨left, top⟩, ⟨right, top⟩⟩, ⟨⟨right, top⟩, ⟨right, bottom⟩⟩,
    ⟨⟨right, bottom⟩, ⟨left, bottom⟩⟩, ⟨⟨left, bottom⟩, ⟨left, top⟩⟩]

/-- Draws the border of a rectangle, with the arithmetic of clipping left open. -/
def drawRectangleIn (K : Type) [Scalar K] (c : Canvas) (centre : Point) (width height : Int)
    (color : Color) (brush : Int) : Canvas :=
  if width ≤ 0 ∨ height ≤ 0 then c
  else
    (rectangleEdges centre width height).foldl (fun c edge => c.drawLineIn K edge color brush) c

/-- Draws the border of a rectangle around a centre. Without a width or a height there is none. -/
def drawRectangle (c : Canvas) (centre : Point) (width height : Int) (color : Color)
    (brush : Int) : Canvas :=
  c.drawRectangleIn Float centre width height color brush

end Easel.Canvas
