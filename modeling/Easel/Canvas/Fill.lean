import Easel.Canvas

/-!
# Filling

Filling paints the cell under the seed and all cells of its color that can be reached from it by
steps to the left, to the right, up and down through cells of that color.

The cells still to be looked at are kept on a stack. Each turn takes one of them, and paints it
only if it still has the seed's first color; so either a cell of that color is used up, or the
stack gets shorter.
-/

namespace Easel.Canvas

/-- Painting a cell of the color `target` in another color leaves one cell less of that color. -/
theorem count_set_succ {c : Canvas} {p : Point} {target color : Color} (distinct : color ≠ target)
    (here : c.get? p = some target) :
    (c.set p color).cells.count target + 1 = c.cells.count target := by
  obtain ⟨i, found, holds⟩ := Option.map_eq_some_iff.mp here
  have holds : c.cells[i.val] = target := holds
  have some_left : 0 < c.cells.count target :=
    Vector.count_pos_iff.mpr (holds ▸ Vector.getElem_mem i.isLt)
  rw [set_eq color found]
  simp only [Vector.count_set, holds, beq_self_eq_true, if_true, beq_iff_eq, distinct, if_false]
  omega

/-- Each cell that is filled leaves one fewer to fill. -/
theorem count_set_lt {c : Canvas} {p : Point} {target color : Color} (distinct : color ≠ target)
    (here : c.get? p = some target) :
    (c.set p color).cells.count target < c.cells.count target :=
  Nat.lt_of_succ_le (Nat.le_of_eq (count_set_succ distinct here))

/-- Fills from the points of a stack, of which the first is looked at first. -/
def fillFrom {target color : Color} (distinct : color ≠ target) (c : Canvas)
    (stack : List Point) : Canvas :=
  match stack with
  | [] => c
  | p :: stack =>
    if here : c.get? p = some target then
      have := count_set_lt distinct here
      fillFrom distinct (c.set p color)
        (p.shift 0 (-1) :: p.shift 0 1 :: p.shift (-1) 0 :: p.shift 1 0 :: stack)
    else fillFrom distinct c stack
termination_by (c.cells.count target, stack.length)

/-- Fills from a seed. Nothing happens if the seed is off the canvas or has the color already. -/
def floodFill (c : Canvas) (seed : Point) (color : Color) : Canvas :=
  match c.get? seed with
  | none => c
  | some target =>
    if same : color = target then c else fillFrom same c [seed]

end Easel.Canvas
